import RespBus.Framing

/-!
# Configuration Errors

A configuration can be refused, it can fail to be a document of the expected
shape, or the file that holds it can fail to be read. A refusal names the
setting. A file that is read but is not text counts as a file that could not
be read.

## Main definitions

* `FileFailure`: Why a file could not be read as text.
* `ConfigError`: Why there is no configuration.
* `ConfigError.message`: The wording of either.
-/

namespace RespBus

/-- Why a file could not be read as text. -/
inductive FileFailure where
  | notFound
  | notADirectory
  | isADirectory
  | notText
  /-- Anything else, in the system's words. -/
  | other (text : String)
  deriving DecidableEq

/-- The wording of a failure, with the system's number where it has one. -/
def FileFailure.message : FileFailure → String
  | notFound => "No such file or directory (os error 2)"
  | notADirectory => "Not a directory (os error 20)"
  | isADirectory => "Is a directory (os error 21)"
  | notText => "stream did not contain valid UTF-8"
  | other text => text

/-- Why there is no configuration. -/
inductive ConfigError where
  /-- A setting makes no sense. -/
  | invalid (setting : InvalidSetting)
  /-- The text is no document of the expected shape. -/
  | malformed
  /-- The file could not be read. -/
  | unreadable (path : String) (failure : FileFailure)
  deriving DecidableEq

/-- The wording of a configuration error. -/
def ConfigError.message : ConfigError → String
  | invalid setting => "invalid configuration: " ++ setting.message
  | malformed => "failed to parse configuration"
  | unreadable path failure => "failed to read configuration " ++ path ++ ": " ++ failure.message

end RespBus
