import Portability.Yaml.Cursor

namespace Portability.Yaml

inductive Scalar
  | plain (content : List Char)
  | quoted (content : Text)
  deriving DecidableEq, Repr

def fold (first more : List Char) : List Char :=
  if first ≠ ['\n'] then first ++ more
  else if more.isEmpty then [' ']
  else more

namespace Plain

def stops (inFlow : Bool) (a : Char) (b : Option Char) : Bool :=
  isSpace a
    || (a = ':' && endOr (fun c => isSpace c || (inFlow && [',', '[', ']', '{', '}'].contains c)) b)
    || (inFlow && [',', '?', '[', ']', '{', '}'].contains a)

def word (inFlow : Bool) : List Char → List Char
  | [] => []
  | a :: rest => if stops inFlow a rest.head? then [] else a :: word inFlow rest

def nextWord (inFlow : Bool) (c : Cursor) : Except Fault (List Char) := do
  let word := if c.peek = some '#' then [] else word inFlow c.rest
  c.require (word.length + 1)
  if c.peek word.length = some ':' then c.require (word.length + 2)
  return word

def breaks : Nat → Cursor → Except Fault (Option (List Char) × Cursor)
  | 0, c => .ok (some [], c)
  | room + 1, c =>
    if c.peek = some ' ' then breaks room c.next
    else if c.seesBreak then do
      let (first, c) := c.lineBreak
      if ← c.seesSeparator then return (none, c)
      else
        let (more, c) ← breaks room c
        return (more.map (first ++ ·), c)
    else .ok (some [], c)

def gap (c : Cursor) : Except Fault (List Char × Bool × Cursor) :=
  let (blanks, c) := c.run (· = ' ')
  if c.seesBreak then do
    let (first, c) := c.lineBreak
    if ← c.seesSeparator then return ([], true, c)
    else match ← breaks (c.rest.length + 1) c with
      | (some more, c) => return (fold first more, true, c)
      | (none, c) => return ([], true, c)
  else .ok (blanks, false, c)

def scan (inFlow : Bool) (indent : Int) :
    Nat → List Char → Cursor → Except Fault (List Char × Bool × Cursor)
  | 0, _, c => .ok ([], false, c)
  | room + 1, before, c => do
    let word ← nextWord inFlow c
    if word.isEmpty then return ([], false, c)
    else
      let (space, broken, after) ← gap (c.skip word.length)
      if space.isEmpty ∨ after.peek = some '#' ∨ (!inFlow ∧ (after.column : Int) < indent) then
        return (before ++ word, broken, after)
      else
        let (more, further, last) ← scan inFlow indent room space after
        if more.isEmpty then return (before ++ word, broken, last)
        else return (before ++ word ++ more, further, last)

end Plain

namespace Quoted

def replacement? (a : Char) : Option Char :=
  ([('0', '\x00'), ('a', '\x07'), ('b', '\x08'), ('t', '\t'), ('\t', '\t'), ('n', '\n'),
    ('v', '\x0B'), ('f', '\x0C'), ('r', '\r'), ('e', '\x1B'), (' ', ' '), ('"', '"'), ('\\', '\\'),
    ('/', '/'), ('N', '\x85'), ('_', '\xA0'), ('L', '\u2028'), ('P', '\u2029')].find?
      fun pair => pair.1 = a).map Prod.snd

def width? (a : Char) : Option Nat :=
  if a = 'x' then some 2 else if a = 'u' then some 4 else if a = 'U' then some 8 else none

def hexDigit? (a : Char) : Option Nat :=
  if '0' ≤ a ∧ a ≤ '9' then some (a.toNat - '0'.toNat)
  else if 'a' ≤ a ∧ a ≤ 'f' then some (a.toNat - 'a'.toNat + 10)
  else if 'A' ≤ a ∧ a ≤ 'F' then some (a.toNat - 'A'.toNat + 10)
  else none

def hexValue? (digits : List Char) : Option Nat :=
  digits.foldlM (fun n a => (hexDigit? a).map (16 * n + ·)) 0

def breaks : Nat → Cursor → Except Fault (List Char × Cursor)
  | 0, c => .ok ([], c)
  | room + 1, c => do
    if ← c.seesSeparator then throw .malformed
    else
      let (_, c) := c.run fun a => a = ' ' || a = '\t'
      if c.seesBreak then
        let (first, c) := c.lineBreak
        let (more, c) ← breaks room c
        return (first ++ more, c)
      else return ([], c)

def codePoint (n : Nat) : Except Fault CodePoint :=
  if 0x7FFFFFFF < n then
    .error (.refused (.overflow "Python int too large to convert to C int"))
  else if 0x10FFFF < n then .error (.refused (.invalid "chr() arg not in range(0x110000)"))
  else .ok (.ofNumber n)

def escape (c : Cursor) : Except Fault (Text × Cursor) :=
  match c.peek with
  | none => .error c.unfinished
  | some a =>
    match replacement? a, width? a with
    | some b, _ => .ok ([.char b], c.next)
    | none, some width => do
      let digits := c.next.rest.take width
      let some n := hexValue? digits | throw .malformed
      if digits.length < width then throw c.unfinished
      return ([← codePoint n], c.next.skip width)
    | none, none => do
      if !isBreak a then throw .malformed
      let (more, c) ← breaks (c.rest.length + 1) c.lineBreak.2
      return (Text.ofChars more, c)

def scan (quote : Char) : Nat → Cursor → Except Fault (Text × Cursor)
  | 0, _ => .error .malformed
  | room + 1, c =>
    match c.peek with
    | none => .error c.unfinished
    | some a =>
      if a = quote then
        if quote = '\'' ∧ c.peek 1 = some '\'' then do
          let (text, c) ← scan quote room (c.skip 2)
          return (.char '\'' :: text, c)
        else .ok ([], c.next)
      else if a = '\\' ∧ quote = '"' then do
        let (text, c) ← escape c.next
        let (more, c) ← scan quote room c
        return (text ++ more, c)
      else if a = ' ' ∨ a = '\t' ∨ isBreak a then do
        let (blanks, after) := c.run fun a => a = ' ' || a = '\t'
        if after.seesBreak then
          let (first, after) := after.lineBreak
          let (further, after) ← breaks (after.rest.length + 1) after
          let (more, last) ← scan quote room after
          return (Text.ofChars (fold first further) ++ more, last)
        else
          let (more, last) ← scan quote room after
          return (Text.ofChars blanks ++ more, last)
      else do
        let (more, c) ← scan quote room c.next
        return (.char a :: more, c)

end Quoted

end Portability.Yaml
