import Portability.Text.Lines
import Portability.Text.Utf8

namespace Portability

/-- What a file gives that is read line by line: some lines, and after them perhaps bytes that are no
text. -/
structure Delivery where
  lines : List Text
  fault? : Option Utf8.Fault
  deriving DecidableEq, Repr

def deliver (content : ByteArray) : Delivery :=
  match Utf8.readBlocks content with
  | (cs, none) => ⟨Text.fileLines (Text.ofChars cs), none⟩
  | (cs, some fault) => ⟨Text.finishedLines (Text.ofChars cs), some fault⟩

end Portability
