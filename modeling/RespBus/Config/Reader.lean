import RespBus.Config.Basic
import RespBus.Config.Error
import RespBus.Json.Record

/-!
# Reading Configurations

A configuration file is a document that holds a record, and every field it
leaves out takes its default. The framing inside it is tagged: its mode
decides which other fields it has, and may come after them. So a framing is
stored before it is read, and everything in it has to be storable, the
fields that are passed over included.

The store takes documents with at most 127 containers open at once. A
framing inside a configuration has one container around it already.

## Main definitions

* `Framing.ofJson?`: The framing that a value stands for.
* `Namespaces.ofJson?`: The namespaces that a value stands for.
* `ClientConfig.ofJson?`: The configuration that a value stands for.
* `Framing.parse`, `Namespaces.parse`, `ClientConfig.parse`: The same for
  whole documents.
* `ClientConfig.ofText`: The configuration in a text, if it makes sense.
* `ClientConfig.ofFile`: The same for the bytes of a file.
-/

namespace RespBus

open Json (Value only? orDefault)

/-- How many containers may be open at once in a stored document. -/
def maxStoredNesting : Nat := 127

/-- The number of bytes in a chunk. -/
def chunkSize? (value : Value) : Option Nat :=
  value.naturalBelow? (Nat.pow 2 64)

/-- The framing that a value stands for, with at most `levels` containers
    open at once. -/
def Framing.ofJson? (levels : Nat) (value : Value) : Option Framing :=
  if value.isStorable levels then
    match value with
    | .object members => do
      -- The mode may stand anywhere, and other fields are passed over.
      let mode ← (← only? "mode" members).text?
      if mode = "resp" then some .resp
      else if mode = "short_read" then (chunkSize? (← only? "chunk_size" members)).map .shortRead
      else none
    -- As an array a framing is exactly as long as its mode wants.
    | .array [mode] => if mode.text? = some "resp" then some .resp else none
    | .array [mode, size] =>
      if mode.text? = some "short_read" then (chunkSize? size).map .shortRead else none
    | _ => none
  else none

/-- The names of the fields of the namespaces, in order. -/
def Namespaces.fieldNames : List String :=
  ["menu_channel", "menu_key", "message_prefix", "notification_prefix"]

/-- The namespaces that a value stands for. -/
def Namespaces.ofJson? (value : Value) : Option Namespaces := do
  let absent : Namespaces := {}
  let field ← value.record? fieldNames
  let menuChannel ← orDefault absent.menuChannel Value.text? (field "menu_channel")
  let menuKey ← orDefault absent.menuKey Value.text? (field "menu_key")
  let messagePrefix ← orDefault absent.messagePrefix Value.text? (field "message_prefix")
  let notificationPrefix ←
    orDefault absent.notificationPrefix Value.text? (field "notification_prefix")
  some { menuChannel, menuKey, messagePrefix, notificationPrefix }

/-- A port number. -/
def port? (value : Value) : Option UInt16 :=
  (value.naturalBelow? (Nat.pow 2 16)).map UInt16.ofNat

/-- The names of the fields of a configuration, in order. -/
def ClientConfig.fieldNames : List String :=
  ["host", "port", "framing", "namespaces"]

/-- The configuration that a value stands for. -/
def ClientConfig.ofJson? (value : Value) : Option ClientConfig := do
  let absent : ClientConfig := {}
  let field ← value.record? fieldNames
  let host ← orDefault absent.host Value.text? (field "host")
  let port ← orDefault absent.port port? (field "port")
  let framing ←
    orDefault absent.framing (Framing.ofJson? (maxStoredNesting - 1)) (field "framing")
  let namespaces ← orDefault absent.namespaces Namespaces.ofJson? (field "namespaces")
  some { host, port, framing, namespaces }

/-- The framing that a document spells. -/
def Framing.parse (document : String) : Option Framing := do
  Framing.ofJson? maxStoredNesting (← Json.parse document)

/-- The namespaces that a document spells. -/
def Namespaces.parse (document : String) : Option Namespaces := do
  Namespaces.ofJson? (← Json.parse document)

/-- The configuration that a document spells. -/
def ClientConfig.parse (document : String) : Option ClientConfig := do
  ClientConfig.ofJson? (← Json.parse document)

/-- The configuration in a text, if it is one and makes sense. -/
def ClientConfig.ofText (text : String) : Except ConfigError ClientConfig :=
  match parse text with
  | none => .error .malformed
  | some config =>
    match config.validate with
    | .error setting => .error (.invalid setting)
    | .ok () => .ok config

/-- The configuration in the file at `path`, given what reading the file
    brought. A file must be UTF-8 before anything in it is looked at. -/
def ClientConfig.ofFile (path : String) (contents : Except FileFailure Bytes) :
    Except ConfigError ClientConfig :=
  match contents with
  | .error failure => .error (.unreadable path failure)
  | .ok bytes =>
    match String.fromUTF8? ⟨bytes.toArray⟩ with
    | none => .error (.unreadable path .notText)
    | some text => ofText text

end RespBus
