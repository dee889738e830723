import Portability.Text.Basic

namespace Portability.Text

def linesAt (isBreak : CodePoint → Bool) : Text → List Text
  | [] => []
  | .char '\r' :: .char '\n' :: rest => [] :: linesAt isBreak rest
  | c :: rest =>
    if isBreak c then [] :: linesAt isBreak rest
    else match linesAt isBreak rest with
      | [] => [[c]]
      | line :: lines => (c :: line) :: lines

def isNewline (p : CodePoint) : Bool := p = .char '\n' || p = .char '\r'

def isLineBreak (p : CodePoint) : Bool :=
  isNewline p || [0x0B, 0x0C, 0x1C, 0x1D, 0x1E, 0x85, 0x2028, 0x2029].contains p.number

def fileLines (t : Text) : List Text := linesAt isNewline t

def lines (t : Text) : List Text := linesAt isLineBreak t

/-- The lines of a file that are over when more of it is to come: a last carriage return may be half
of a break. -/
def finishedLines : Text → List Text
  | [] | [.char '\r'] => []
  | .char '\r' :: .char '\n' :: rest => [] :: finishedLines rest
  | c :: rest =>
    if isNewline c then [] :: finishedLines rest
    else match finishedLines rest with
      | [] => []
      | line :: lines => (c :: line) :: lines

end Portability.Text
