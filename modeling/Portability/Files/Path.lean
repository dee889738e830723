import Portability.Text.Quoted

/-! Paths in normal form. Exactly two leading slashes are told apart from one. -/

namespace Portability

inductive Path.Root
  | relative | single | double
  deriving DecidableEq, Repr

structure Path where
  root : Path.Root
  parts : List String
  deriving DecidableEq, Repr

namespace Path

def Root.marks : Root → String
  | relative => ""
  | single => "/"
  | double => "//"

def Root.ofChars : List Char → Root
  | ['/', '/'] => double
  | '/' :: '/' :: c :: _ => if c = '/' then single else double
  | '/' :: _ => single
  | _ => relative

def ofString (s : String) : Path where
  root := Root.ofChars s.toList
  parts := ((Text.split '/' s.toList).map String.ofList).filter fun part => part ≠ "" ∧ part ≠ "."

def display (p : Path) : String :=
  if p.root = .relative ∧ p.parts.isEmpty then "." else p.root.marks ++ "/".intercalate p.parts

def join (p q : Path) : Path :=
  if q.root = .relative then ⟨p.root, p.parts ++ q.parts⟩ else q

def isAbsolute (p : Path) : Bool := p.root ≠ .relative

def hasNull (p : Path) : Bool := p.display.toList.contains '\x00'

def size : CodePoint → Nat
  | .char c => c.utf8Size
  | .half _ => 1

def byteSize (s : String) : Nat := (Text.ofString s).foldl (fun n p => n + size p) 0

structure Unencodable where
  position : Nat
  halves : Text
  deriving DecidableEq, Repr

def Unencodable.reason : String := "surrogates not allowed"

def Unencodable.describe (u : Unencodable) : String :=
  let place := match u.halves with
    | [_] => "character " ++ Text.quoted u.halves ++ " in position " ++ toString u.position
    | _ => "characters in position " ++ toString u.position ++ "-" ++
        toString (u.position + u.halves.length - 1)
  "'utf-8' codec can't encode " ++ place ++ ": " ++ reason

def unencodable? (position : Nat) : Text → Option Unencodable
  | [] => none
  | p :: rest =>
    if p.isHalf ∧ !(0xDC80 ≤ p.number ∧ p.number ≤ 0xDCFF) then
      some ⟨position, p :: rest.takeWhile CodePoint.isHalf⟩
    else unencodable? (position + 1) rest

def fault? (p : Path) : Option Unencodable := unencodable? 0 (Text.ofString p.display)

def isNameable (p : Path) : Bool := !p.hasNull && p.fault?.isNone

end Path

end Portability
