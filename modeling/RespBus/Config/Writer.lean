import RespBus.Config.Basic
import RespBus.Json.Text

/-!
# Writing Configurations

The compact form of a configuration: objects without blanks, the fields in
their own order, and in a framing the mode first. Nothing is left out, so
reading the form back does not depend on the defaults.

## Main definitions

* `Json.writeObject`: An object from its members, already written.
* `Framing.toJson`, `Namespaces.toJson`, `ClientConfig.toJson`: The compact
  forms.
-/

namespace RespBus

namespace Json

/-- A member of an object. -/
def writeMember (key : String) (value : List Char) : List Char :=
  quote key ++ ':' :: value

/-- An object from its members, already written. -/
def writeObject (members : List (List Char)) : List Char :=
  '\x7b' :: [','].intercalate members ++ ['\x7d']

end Json

open Json (quote writeMember writeObject)

/-- The compact form of a framing. -/
def Framing.toJson : Framing → List Char
  | .shortRead chunkSize =>
    writeObject
      [writeMember "mode" (quote "short_read"),
        writeMember "chunk_size" (Decimal.toChars chunkSize)]
  | .resp => writeObject [writeMember "mode" (quote "resp")]

/-- The compact form of namespaces. -/
def Namespaces.toJson (names : Namespaces) : List Char :=
  writeObject
    [writeMember "menu_channel" (quote names.menuChannel),
      writeMember "menu_key" (quote names.menuKey),
      writeMember "message_prefix" (quote names.messagePrefix),
      writeMember "notification_prefix" (quote names.notificationPrefix)]

/-- The compact form of a configuration. -/
def ClientConfig.toJson (config : ClientConfig) : List Char :=
  writeObject
    [writeMember "host" (quote config.host),
      writeMember "port" (Decimal.toChars config.port.toNat),
      writeMember "framing" config.framing.toJson,
      writeMember "namespaces" config.namespaces.toJson]

end RespBus
