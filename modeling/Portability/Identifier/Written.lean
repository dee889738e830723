import Portability.Identifier.Basic
import Portability.Text.Packed

/-!
The written form of identifiers in a list:

    <tag>-<namespace>[-<type>[+<nested type>]*[.<member>][(<parameters>)]][ O]
-/

namespace Portability.Identifier

inductive Fault
  | empty
  | tooShort
  | unknownMarker (marker : CodePoint)
  | unknownTag (tag : CodePoint)
  | noTagSeparator
  | emptyNameSpace
  | nameSpaceHas (c : Char)
  | emptySegment (nameSpace : Text)
  | innerBlank
  | noTypeSeparator
  | unexpectedParameters (kind : Kind)
  | secondSeparator
  | emptyTypeName
  | dottedTypeName (name : Text)
  | memberForm (kind : Kind)
  deriving DecidableEq, Repr

def Fault.reason : Fault → String
  | empty => "identifier is empty"
  | tooShort => "identifier is too short"
  | unknownMarker marker => s!"unknown marker \"{Text.asString [marker]}\", only \"O\" is supported"
  | unknownTag tag => s!"unknown kind tag \"{Text.asString [tag]}\""
  | noTagSeparator => "kind tag must be followed by \"-\""
  | emptyNameSpace => "empty namespace name"
  | nameSpaceHas c => s!"namespace must not contain \"{c}\""
  | emptySegment nameSpace => s!"empty segment in namespace \"{Text.asString nameSpace}\""
  | innerBlank => "unexpected whitespace inside identifier"
  | noTypeSeparator => "missing \"-\" between namespace and type name"
  | unexpectedParameters kind => s!"parameter list is only allowed for methods, not {kind.name}"
  | secondSeparator => "unexpected \"-\" after the namespace"
  | emptyTypeName => "empty type name"
  | dottedTypeName name => s!"type name \"{Text.asString name}\" must not contain \".\""
  | memberForm kind => s!"{kind.name} must be written as \"<type>.<member>\""

structure Malformed where
  raw : Text
  fault : Fault
  deriving DecidableEq, Repr

def unmark (line : Text) : Except Fault (Text × Bool) :=
  match line.reverse with
  | [] => .error .empty
  | [_] => .error .tooShort
  | marker :: gap :: rest =>
    if Text.isBlank gap then
      if marker = .char 'O' ∨ marker = .char 'o' then
        let core := Text.trimEnd rest.reverse
        if core.length < 2 then .error .tooShort else .ok (core, true)
      else .error (.unknownMarker marker)
    else .ok (line, false)

def checkBlank (segment : Text) : Except Fault Unit :=
  if segment.any Text.isBlank then .error .innerBlank else .ok ()

def checkNameSpace (nameSpace : Text) : Except Fault Unit :=
  match ['-', '+', '('].find? fun c => nameSpace.contains (.char c) with
  | some c => .error (.nameSpaceHas c)
  | none =>
    if (Text.split (.char '.') nameSpace).any List.isEmpty then .error (.emptySegment nameSpace)
    else checkBlank nameSpace

def checkTypeNames : List Text → Except Fault Unit
  | [] => .ok ()
  | name :: names =>
    if name.isEmpty then .error .emptyTypeName
    else if name.contains (.char '.') then .error (.dottedTypeName name)
    else checkTypeNames names

def readTypeChain (chain : Text) : Except Fault (List Text) := do
  let names := Text.split (.char '+') chain
  checkTypeNames names
  return names

def splitParameters (kind : Kind) (rest : Text) : Except Fault (Text × Text) :=
  match Text.cutLast (.char '(') rest with
  | none => .ok (rest, [])
  | some (before, parameters) =>
    if kind = .method then .ok (before, .char '(' :: parameters)
    else .error (.unexpectedParameters kind)

def readMember (kind : Kind) (nameSpace path parameters : Text) (deprecated : Bool) :
    Except Fault Identifier :=
  match Text.cutLast (.char '.') path with
  | some (chain@(_ :: _), member@(_ :: _)) => do
    let chain ← readTypeChain chain
    return ⟨kind, nameSpace, chain, member ++ parameters, deprecated⟩
  | _ => .error (.memberForm kind)

def readInner (kind : Kind) (nameSpace rest : Text) (deprecated : Bool) :
    Except Fault Identifier := do
  let (path, parameters) ← splitParameters kind rest
  if path.contains (.char '-') then throw .secondSeparator
  checkBlank path
  if kind = .type then
    let chain ← readTypeChain path
    return ⟨kind, nameSpace, chain.dropLast, chain.getLast?.getD [], deprecated⟩
  else readMember kind nameSpace path parameters deprecated

def readCore (deprecated : Bool) : Text → Except Fault Identifier
  | tag :: separator :: body => do
    let kind := Kind.ofTag tag
    if kind = .undefined then throw (.unknownTag tag)
    if separator ≠ .char '-' then throw .noTagSeparator
    if kind = .nameSpace then
      if body.isEmpty then throw .emptyNameSpace
      checkNameSpace body
      return ⟨kind, body, [], [], deprecated⟩
    else
      match Text.cutFirst (.char '-') body with
      | none => throw .noTypeSeparator
      | some (nameSpace, rest) =>
        if !nameSpace.isEmpty then checkNameSpace nameSpace
        readInner kind nameSpace rest deprecated
  | _ => .error .tooShort

/-- Reads one line. A fault is reported with the text it was found in: the line as given if it
is blank, else the trimmed line, and the line without its marker once that is taken off. -/
def read (raw : Text) : Except Malformed Identifier :=
  let line := Text.trim raw
  if line.isEmpty then .error ⟨raw, .empty⟩
  else match unmark line with
    | .error fault => .error ⟨line, fault⟩
    | .ok (core, deprecated) => (readCore deprecated core).mapError (⟨core, ·⟩)

def readGiven (raw : Option Text) : Except Malformed Identifier := read (raw.getD [])

def isSkippable (line : Text) : Bool :=
  match Text.trim line with
  | [] => true
  | c :: _ => c = .char '#'

def readAll (lines : List Text) : Except Malformed (List Identifier) :=
  (lines.filter fun line => !isSkippable line).mapM read

inductive Unwritable
  | undefinedKind
  | nameSpaceParts (id : Text)
  | unreadable (id : Text) (cause : Malformed)
  | changed (id : Text)
  deriving DecidableEq, Repr

def joined (x : Identifier) : Except Unwritable Text :=
  match x.kind.tag? with
  | none => .error .undefinedKind
  | some tag =>
    let mark := if x.deprecated then Text.ofChars [' ', 'O'] else []
    if x.kind = .nameSpace then
      if x.outer.isEmpty && x.name.isEmpty then .ok (.char tag :: .char '-' :: x.nameSpace ++ mark)
      else .error (.nameSpaceParts x.id)
    else
      let path := Text.join (.char '+') x.typeChain
      let member := if x.kind.isMember then .char '.' :: x.name else []
      .ok (.char tag :: .char '-' :: x.nameSpace ++ .char '-' :: path ++ member ++ mark)

def write (x : Identifier) : Except Unwritable Text := do
  let line ← joined x
  match read line with
  | .error cause => throw (.unreadable x.id cause)
  | .ok y => if y = x then return line else throw (.changed x.id)

def make (x : Identifier) : Except Unwritable Identifier := do
  let _ ← write x
  return x

end Portability.Identifier
