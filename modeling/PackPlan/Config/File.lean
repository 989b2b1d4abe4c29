import PackPlan.Config.Yaml

/-!
# PackPlan.Config.File

Settings from a file, or the default ones where no file is named. A message names the cause twice:
once in the wording of what failed, and once by itself.
-/

namespace PackPlan

inductive FileError where
  | missing
  | denied
  | notDirectory
  | isDirectory
  /-- The bytes of the file are not text. -/
  | notText
  | other (text : String)
deriving DecidableEq, Repr

def FileError.message : FileError → String
  | .missing => "No such file or directory (os error 2)"
  | .denied => "Permission denied (os error 13)"
  | .notDirectory => "Not a directory (os error 20)"
  | .isDirectory => "Is a directory (os error 21)"
  | .notText => "stream did not contain valid UTF-8"
  | .other text => text

namespace Config

inductive LoadError where
  | file (cause : FileError)
  | document (cause : Yaml.Failure)
deriving DecidableEq

def LoadError.message : LoadError → String
  | .file cause => "failed to read configuration file: " ++ cause.message ++ ": " ++ cause.message
  | .document cause => failureMessage cause ++ ": " ++ failureCause cause

/-- The settings of a run that may name a file, where files are read like this. -/
def load (read : String → Except FileError String) :
    Option String → Except LoadError Config
  | none => .ok {}
  | some path =>
    match read path with
    | .error cause => .error (.file cause)
    | .ok text => (ofYaml text).mapError .document

end Config
end PackPlan
