import RespBus.Proofs.Config.Listed
import RespBus.Proofs.Json.Reading

/-!
# Configurations Read Back

The compact form of a configuration names every field, so reading it back
does not depend on the defaults, and nothing of the configuration is lost: a
text comes back whatever its characters are, a port because it is below
`2 ^ 16`, and a chunk size as long as it is one that fits a word of 64 bits.
`Framing.FitsWord` says the last, which is the only condition there is.

The form and its reader have a record in common, and each side is about that
alone. `fields` is the record, `spells_toJson` says that the form spells it,
and `ofJson?_fields` that it stands for what it was made from. The second is a
case of what objects stand for that list a configuration: this one lists all
of it, in order and among nothing else.

Whether the configuration makes sense is another matter. It is written and
read back all the same, and refused afterwards for the setting that
`validate` refuses.

## Main definitions

* `ClientConfig.fields`: The record that the compact form spells.

## Theorems

* `Framing.spells_toJson`, `Namespaces.spells_toJson`,
  `ClientConfig.spells_toJson`: A compact form spells its record.
* `Framing.ofJson?_fields`, `Namespaces.ofJson?_fields`,
  `ClientConfig.ofJson?_fields`: A record stands for what it was made from.
* `ClientConfig.parse_toJson`: What is written is read back.
-/

namespace RespBus

open Json

/-- All fields, and nothing else, list themselves. -/
theorem Json.lists_all (known : List String) (fields : List (String × Value)) :
    Lists known (fields.filter fun _ => true) fields := by
  refine ⟨[], fun _ h => absurd h List.not_mem_nil, ?_⟩
  rw [List.append_nil, List.filter_eq_self.2 fun _ _ => rfl]

namespace Framing

/-- What is written for a framing spells its fields. -/
theorem spells_toJson (framing : Framing) :
    Json.Spells framing.toJson (.record framing.fields) := by
  cases framing with
  | shortRead chunkSize =>
      exact spells_writeObject (.cons "mode" (spells_quote "short_read")
        (.cons "chunk_size" (spells_toChars chunkSize) .nil))
  | resp => exact spells_writeObject (.cons "mode" (spells_quote "resp") .nil)

theorem listed_fields (framing : Framing) (levels : Nat) :
    framing.Listed levels (.record framing.fields) :=
  ⟨_, [], fun _ h => absurd h List.not_mem_nil, by rw [List.append_nil], rfl⟩

/-- A framing is read back inside any container that leaves room for it. -/
theorem ofJson?_fields {framing : Framing} (h : framing.FitsWord) (levels : Nat) :
    ofJson? (levels + 1) (.record framing.fields) = some framing :=
  ofJson?_listed h (framing.listed_fields levels)

end Framing

namespace Namespaces

theorem spells_toJson (names : Namespaces) : Json.Spells names.toJson (.record names.fields) :=
  spells_writeObject (.cons "menu_channel" (spells_quote names.menuChannel)
    (.cons "menu_key" (spells_quote names.menuKey)
      (.cons "message_prefix" (spells_quote names.messagePrefix)
        (.cons "notification_prefix" (spells_quote names.notificationPrefix) .nil))))

theorem listed_fields (names : Namespaces) :
    names.Listed (fun _ => true) (.record names.fields) :=
  ⟨_, lists_all fieldNames names.fields, rfl⟩

/-- The fields of the names are read back. -/
theorem ofJson?_fields (names : Namespaces) :
    ofJson? (.record names.fields) = some names :=
  ofJson?_listed names.listed_fields

end Namespaces

namespace ClientConfig

/-- The fields of a configuration, in order. -/
def fields (config : ClientConfig) : List (String × Value) :=
  [("host", .text (some config.host)), ("port", .number (.ofNat config.port.toNat)),
    ("framing", .record config.framing.fields), ("namespaces", .record config.namespaces.fields)]

theorem spells_toJson (config : ClientConfig) : Json.Spells config.toJson (.record config.fields) :=
  spells_writeObject (.cons "host" (spells_quote config.host)
    (.cons "port" (spells_toChars config.port.toNat)
      (.cons "framing" config.framing.spells_toJson
        (.cons "namespaces" config.namespaces.spells_toJson .nil))))

theorem listed_fields (config : ClientConfig) :
    config.Listed (fun _ => true) (fun _ => true) (.record config.fields) :=
  ⟨_, _, _, config.framing.listed_fields _, config.namespaces.listed_fields,
    lists_all fieldNames config.fields, rfl⟩

/-- The fields of a configuration are read back, if its chunk size is a word. -/
theorem ofJson?_fields {config : ClientConfig} (h : config.framing.FitsWord) :
    ofJson? (.record config.fields) = some config :=
  ofJson?_listed h config.listed_fields

/-- What is written is read back, and refused only if it makes no sense. -/
theorem parse_toJson :
    (∀ config : ClientConfig, config.framing.FitsWord →
      parse (String.ofList config.toJson) = some config ∧
        (config.validate = .ok () → ofText (String.ofList config.toJson) = .ok config) ∧
        ∀ setting, config.validate = .error setting →
          ofText (String.ofList config.toJson) = .error (.invalid setting)) ∧
      (∀ names : Namespaces, Namespaces.parse (String.ofList names.toJson) = some names) ∧
      ∀ framing : Framing, framing.FitsWord →
        Framing.parse (String.ofList framing.toJson) = some framing := by
  refine ⟨fun config h => ?_, fun names => ?_, fun framing h => ?_⟩
  · have hparse : parse (String.ofList config.toJson) = some config := by
      -- What is written spells the fields, and the fields are read back.
      rw [parse, config.spells_toJson.parse_eq]
      exact ofJson?_fields h
    refine ⟨hparse, fun hvalid => ?_, fun setting hrefused => ?_⟩
    · simp only [ofText, hparse, hvalid]
    · simp only [ofText, hparse, hrefused]
  · rw [Namespaces.parse, names.spells_toJson.parse_eq]
    exact names.ofJson?_fields
  · rw [Framing.parse, framing.spells_toJson.parse_eq]
    exact Framing.ofJson?_fields h (maxStoredNesting - 1)

/-- A host that has to be escaped, and numbers at their bounds. -/
def bounding : ClientConfig :=
  { host := "a\"b\\c\n\x01é", port := 65535, framing := .shortRead 18446744073709551615 }

/-- The same configuration without the key of the menu, which is refused. -/
def unkeyed : ClientConfig :=
  { bounding with namespaces := { menuKey := "" } }

theorem parse_toJson_bounding :
    bounding.framing.FitsWord ∧ bounding.validate = .ok () ∧
      unkeyed.validate = .error .emptyMenuKey ∧
      String.ofList bounding.toJson =
        "\x7b\"host\":\"a\\\"b\\\\c\\n\\u0001é\",\"port\":65535," ++
        "\"framing\":\x7b\"mode\":\"short_read\",\"chunk_size\":18446744073709551615\x7d," ++
        "\"namespaces\":\x7b\"menu_channel\":\"menu:updates\",\"menu_key\":\"menu:current\"," ++
        "\"message_prefix\":\"messages:\",\"notification_prefix\":\"notifications:\"\x7d\x7d" ∧
      ofText (String.ofList bounding.toJson) = .ok bounding ∧
      parse (String.ofList unkeyed.toJson) = some unkeyed ∧
      ofText (String.ofList unkeyed.toJson) = .error (.invalid .emptyMenuKey) ∧
      Framing.parse (String.ofList bounding.framing.toJson) = some bounding.framing := by
  have hfits : bounding.framing.FitsWord := by
    show 18446744073709551615 < Nat.pow 2 64
    decide
  have hvalid : bounding.validate = .ok () := rfl
  have hrefused : unkeyed.validate = .error .emptyMenuKey := rfl
  rcases parse_toJson with ⟨hconfig, -, hframing⟩
  refine ⟨hfits, hvalid, hrefused, by decide +kernel, (hconfig bounding hfits).2.1 hvalid,
    (hconfig unkeyed hfits).1, (hconfig unkeyed hfits).2.2 _ hrefused,
    hframing bounding.framing hfits⟩

end ClientConfig

end RespBus
