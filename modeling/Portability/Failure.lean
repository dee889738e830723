import Portability.Files.Path
import Portability.Identifier.Written
import Portability.Text.Utf8

/-! The ways in which an operation can fail, each with its cause, and their texts. -/

namespace Portability

inductive FileFault
  | notFound
  | isDirectory
  | notDirectory
  | alreadyExists
  | nameTooLong
  deriving DecidableEq, Repr

def FileFault.describe : FileFault → String
  | notFound => "[Errno 2] No such file or directory"
  | isDirectory => "[Errno 21] Is a directory"
  | notDirectory => "[Errno 20] Not a directory"
  | alreadyExists => "[Errno 17] File exists"
  | nameTooLong => "[Errno 36] File name too long"

inductive Problem
  | format (raw : Text) (reason : String)
  | listRead (message : Option String) (line : Option Int) (source : Option String)
  | cancelled (message : Option String)
  | configuration (message : String)
  | invalid (message : String)
  | overflow (message : String)
  | mistyped (message : String)
  | undecodable (fault : Utf8.Fault)
  | unencodable (fault : Path.Unencodable)
  | file (fault : FileFault) (path : String)
  | absentSymbol
  deriving DecidableEq, Repr

inductive Failure
  | plain (problem : Problem)
  | because (problem : Problem) (cause : Failure)
  deriving DecidableEq, Repr

namespace Problem

def name : Problem → String
  | format .. => "EntityFormatError"
  | listRead .. => "EntityListReadError"
  | cancelled _ => "OperationCancelledError"
  | configuration _ => "ConfigurationError"
  | invalid _ => "ValueError"
  | overflow _ => "OverflowError"
  | mistyped _ => "TypeError"
  | undecodable _ => "UnicodeDecodeError"
  | unencodable _ => "UnicodeEncodeError"
  | file .notFound _ => "FileNotFoundError"
  | file .isDirectory _ => "IsADirectoryError"
  | file .notDirectory _ => "NotADirectoryError"
  | file .alreadyExists _ => "FileExistsError"
  | file .nameTooLong _ => "OSError"
  | absentSymbol => "AttributeError"

def isOwn : Problem → Bool
  | format .. | listRead .. | cancelled _ | configuration _ => true
  | _ => false

def isValueProblem : Problem → Bool
  | format .. | invalid _ | undecodable _ | unencodable _ => true
  | _ => false

def qualifiedName (p : Problem) : String :=
  match p with
  | format .. | listRead .. | cancelled _ => "runtime_compat.errors." ++ p.name
  | configuration _ => "runtime_compat.config." ++ p.name
  | _ => p.name

def message : Problem → String
  | format raw reason =>
    "Entity identifier \"" ++ Text.asString raw ++ "\" has unknown format: " ++ reason
  | listRead message .. =>
    match message with
    | some text =>
      if blankString text then "An error happened during the reading of the entity list." else text
    | none => "An error happened during the reading of the entity list."
  | cancelled message => message.getD "The operation was cancelled."
  | configuration message | invalid message | overflow message | mistyped message => message
  | absentSymbol => "'NoneType' object has no attribute 'is_generic'"
  | undecodable fault => fault.describe
  | unencodable fault => fault.describe
  | file fault path => fault.describe ++ ": " ++ Text.quoted (Text.ofString path)

def raw? : Problem → Option Text
  | format raw _ => some raw
  | _ => none

def reason? : Problem → Option String
  | format _ reason => some reason
  | unencodable _ => some Path.Unencodable.reason
  | _ => none

def line? : Problem → Option Int
  | listRead _ line _ => line
  | _ => none

def source? : Problem → Option String
  | listRead _ _ source => source
  | _ => none

end Problem

namespace Failure

def problem : Failure → Problem
  | plain p | because p _ => p

def ofProblem (p : Problem) : Option Failure → Failure
  | none => plain p
  | some cause => because p cause

def message (f : Failure) : String := f.problem.message

def headline (p : Problem) : String :=
  if p.message.isEmpty then p.qualifiedName else p.qualifiedName ++ ": " ++ p.message

def describe : Failure → String
  | plain p => headline p
  | because p cause =>
    cause.describe ++
      "\n\nThe above exception was the direct cause of the following exception:\n\n" ++ headline p

def missing (part : String) : Failure := plain (.invalid (part ++ " must not be None"))

def ofMalformed (m : Identifier.Malformed) : Failure := plain (.format m.raw m.fault.reason)

def ofUnwritable : Identifier.Unwritable → Failure
  | .undefinedKind =>
    plain (.format (Text.ofString "EntityKind.UNDEFINED") "undefined entity kind has no tag")
  | .nameSpaceParts id => plain (.format id "namespace must not have type or member parts")
  | .changed id => plain (.format id "parts contain separator characters")
  | .unreadable id cause =>
    because (.format id ("cannot be encoded: " ++ cause.fault.reason)) (ofMalformed cause)

end Failure

end Portability
