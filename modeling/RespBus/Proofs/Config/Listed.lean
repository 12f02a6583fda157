import RespBus.Config.Reader
import RespBus.Proofs.Json.Record

/-!
# Configurations Listed in Objects

An object lists a configuration if it has some of its fields, once each and in
any order, among members with other names. Such an object stands for the
configuration in which the fields that are not listed have their defaults.
`keep` is that configuration, and `ofJson?_listed` says so, for namespaces and
for the whole.

Which fields are listed is a predicate on names, so no order of the fields and
no subset of them is ever spelled out. The look-ups of the reader are turned
into look-ups among the fields by `Json.Lists.lookup_eq`, and each of them is
then decided by whether the name is listed.

A framing is listed with its mode and with what the mode calls for, and the
mode may come last. Since all of it is stored before it is read, the other
members beside them have to be storable. Elsewhere they may be anything.

## Main definitions

* `Framing.FitsWord`: A chunk size that fits a word.
* `Framing.fields`, `Namespaces.fields`, `ClientConfig.fieldsWith`: The records
  that stand for a framing, namespaces and a configuration.
* `Framing.Listed`, `Namespaces.Listed`, `ClientConfig.Listed`: Objects that
  list some of their fields.
* `Namespaces.keep`, `ClientConfig.keep`: What the listed fields stand for.

## Theorems

* `Json.orDefault_listed`: A field that is listed is read, and else it has its
  default.
* `Framing.ofJson?_listed`, `Namespaces.ofJson?_listed`,
  `ClientConfig.ofJson?_listed`: An object stands for what it lists.
-/

namespace RespBus

open Json

theorem Json.nodup_filter {fields : List (String × Value)} (h : (fields.map Prod.fst).Nodup)
    (listed : String → Bool) :
    ((fields.filter fun field => listed field.1).map Prod.fst).Nodup :=
  h.sublist (List.filter_sublist.map Prod.fst)

/-- A field that is listed is read, and else it has its default. -/
theorem Json.orDefault_listed {known : List String} {fields all : List (String × Value)}
    {listed : String → Bool} (hlists : Lists known (fields.filter fun field => listed field.1) all)
    (hnodup : (fields.map Prod.fst).Nodup) {name : String} (hname : name ∈ known) {json : Value}
    (hfield : fields.lookup name = some json) {α : Type} {read : Value → Option α} {value : α}
    (hread : read json = some value) (absent : α) :
    orDefault absent read (all.lookup name) = some (if listed name then value else absent) := by
  rw [hlists.lookup_eq (nodup_filter hnodup listed) hname, lookup_filter, hfield]
  cases listed name with
  | true => exact hread
  | false => rfl

namespace Framing

/-- A chunk size that fits a word. -/
def FitsWord : Framing → Prop
  | .shortRead chunkSize => chunkSize < Nat.pow 2 64
  | .resp => True

/-- The fields of a framing, the mode first. -/
def fields : Framing → List (String × Value)
  | .shortRead chunkSize =>
    [("mode", .text (some "short_read")), ("chunk_size", .number (.ofNat chunkSize))]
  | .resp => [("mode", .text (some "resp"))]

theorem nodup_fields (framing : Framing) : (framing.fields.map Prod.fst).Nodup := by
  have hnames : ["mode", "chunk_size"].Nodup := by decide
  have hname : ["mode"].Nodup := by decide
  cases framing with
  | shortRead chunkSize => exact hnames
  | resp => exact hname

/-- The fields of a framing can be stored before the tag is known. -/
theorem isStorable_fields {framing : Framing} (h : framing.FitsWord) (levels : Nat) :
    ∀ field ∈ framing.fields, field.2.isStorable levels = true := by
  cases framing with
  | shortRead chunkSize =>
      simp only [fields, List.forall_mem_cons, Value.isStorable, Option.isSome_some,
        Number.isFinite_ofNat h, List.not_mem_nil, false_implies, implies_true, and_self]
  | resp =>
      simp only [fields, List.forall_mem_cons, Value.isStorable, Option.isSome_some,
        List.not_mem_nil, false_implies, implies_true, and_self]

/-- An object has the fields of a framing, in some order and among others that
    can be stored with `levels` containers open in them. -/
def Listed (framing : Framing) (levels : Nat) (value : Value) : Prop :=
  ∃ all others : List (String × Value),
    (∀ other ∈ others, other.1 ∉ framing.fields.map Prod.fst ∧
      other.2.isStorable levels = true) ∧
    all.Perm (framing.fields ++ others) ∧ value = .record all

/-- An object stands for the framing it lists, inside any container that leaves
    room for it. -/
theorem ofJson?_listed {framing : Framing} (h : framing.FitsWord) {levels : Nat} {value : Value}
    (hlisted : framing.Listed levels value) : ofJson? (levels + 1) value = some framing := by
  rcases hlisted with ⟨all, others, hothers, hperm, rfl⟩
  have hlists : Lists (framing.fields.map Prod.fst) framing.fields all :=
    ⟨others, fun other hother => (hothers other hother).1, hperm⟩
  -- The members are stored before any of them is looked at, those passed over
  -- as well.
  have hstored : (Value.record all).isStorable (levels + 1) = true := by
    rw [Value.isStorable_record, List.all_eq_true]
    intro field hfield
    rcases List.mem_append.1 (hperm.mem_iff.1 hfield) with hown | hother
    · exact isStorable_fields h levels field hown
    · exact (hothers field hother).2
  have hfound : ∀ name ∈ framing.fields.map Prod.fst,
      only? name (all.map fun field => (some field.1, field.2)) = framing.fields.lookup name :=
    fun name hname => hlists.only?_eq framing.nodup_fields hname
  unfold ofJson?
  rw [if_pos hstored]
  simp only [Value.record]
  cases framing with
  | shortRead chunkSize =>
      have hmode : (fields (.shortRead chunkSize)).lookup "mode" =
          some (.text (some "short_read")) := rfl
      have hchunk : (fields (.shortRead chunkSize)).lookup "chunk_size" =
          some (.number (.ofNat chunkSize)) := rfl
      have hsize := Value.naturalBelow?_ofNat h
      rw [hfound "mode" List.mem_cons_self, hmode,
        hfound "chunk_size" (List.mem_cons_of_mem _ List.mem_cons_self), hchunk]
      simp only [Value.text?, Option.bind_eq_bind, Option.bind_some, String.reduceEq, if_false,
        if_true, chunkSize?, hsize, Option.map_some]
  | resp =>
      have hmode : (fields .resp).lookup "mode" = some (.text (some "resp")) := rfl
      rw [hfound "mode" List.mem_cons_self, hmode]
      simp only [Value.text?, Option.bind_eq_bind, Option.bind_some, if_true]

end Framing

namespace Namespaces

/-- The fields of namespaces, in order. -/
def fields (names : Namespaces) : List (String × Value) :=
  [("menu_channel", .text (some names.menuChannel)),
    ("menu_key", .text (some names.menuKey)),
    ("message_prefix", .text (some names.messagePrefix)),
    ("notification_prefix", .text (some names.notificationPrefix))]

theorem nodup_fields (names : Namespaces) : (names.fields.map Prod.fst).Nodup := by
  have hnames : fieldNames.Nodup := by decide
  exact hnames

/-- The namespaces of which only the listed fields are kept. -/
def keep (names : Namespaces) (listed : String → Bool) : Namespaces :=
  let absent : Namespaces := {}
  { menuChannel := if listed "menu_channel" then names.menuChannel else absent.menuChannel
    menuKey := if listed "menu_key" then names.menuKey else absent.menuKey
    messagePrefix := if listed "message_prefix" then names.messagePrefix else absent.messagePrefix
    notificationPrefix :=
      if listed "notification_prefix" then names.notificationPrefix
      else absent.notificationPrefix }

/-- An object has the listed fields of namespaces, in some order and among any
    others. -/
def Listed (names : Namespaces) (listed : String → Bool) (value : Value) : Prop :=
  ∃ all, Lists fieldNames (names.fields.filter fun field => listed field.1) all ∧
    value = .record all

/-- An object stands for the namespaces it lists. -/
theorem ofJson?_listed {names : Namespaces} {listed : String → Bool} {value : Value}
    (h : names.Listed listed value) : ofJson? value = some (names.keep listed) := by
  rcases h with ⟨all, hlists, rfl⟩
  have hnodup := names.nodup_fields
  have hchannel (absent : String) : orDefault absent Value.text? (all.lookup "menu_channel") =
      some (if listed "menu_channel" then names.menuChannel else absent) :=
    orDefault_listed hlists hnodup (by decide) rfl (Value.text?_text _) absent
  have hkey (absent : String) : orDefault absent Value.text? (all.lookup "menu_key") =
      some (if listed "menu_key" then names.menuKey else absent) :=
    orDefault_listed hlists hnodup (by decide) rfl (Value.text?_text _) absent
  have hmessages (absent : String) : orDefault absent Value.text? (all.lookup "message_prefix") =
      some (if listed "message_prefix" then names.messagePrefix else absent) :=
    orDefault_listed hlists hnodup (by decide) rfl (Value.text?_text _) absent
  have hnotifications (absent : String) :
      orDefault absent Value.text? (all.lookup "notification_prefix") =
        some (if listed "notification_prefix" then names.notificationPrefix else absent) :=
    orDefault_listed hlists hnodup (by decide) rfl (Value.text?_text _) absent
  simp only [ofJson?, hlists.record?_eq (nodup_filter hnodup listed), hchannel, hkey, hmessages,
    hnotifications, Option.bind_eq_bind, Option.bind_some, keep]

end Namespaces

theorem port?_ofNat (port : UInt16) : port? (.number (.ofNat port.toNat)) = some port := by
  rw [port?, Value.naturalBelow?_ofNat port.toNat_lt, Option.map_some, UInt16.ofNat_toNat]

namespace ClientConfig

/-- The fields of a configuration, in order, with the given framing and
    namespaces. -/
def fieldsWith (config : ClientConfig) (framing namespaces : Value) : List (String × Value) :=
  [("host", .text (some config.host)), ("port", .number (.ofNat config.port.toNat)),
    ("framing", framing), ("namespaces", namespaces)]

theorem nodup_fieldsWith (config : ClientConfig) (framing namespaces : Value) :
    ((config.fieldsWith framing namespaces).map Prod.fst).Nodup := by
  have hnames : fieldNames.Nodup := by decide
  exact hnames

/-- The configuration of which only the listed fields are kept, and of its
    namespaces only those listed there. -/
def keep (config : ClientConfig) (listed namesListed : String → Bool) : ClientConfig :=
  let absent : ClientConfig := {}
  { host := if listed "host" then config.host else absent.host
    port := if listed "port" then config.port else absent.port
    framing := if listed "framing" then config.framing else absent.framing
    namespaces :=
      if listed "namespaces" then config.namespaces.keep namesListed else absent.namespaces }

/-- An object has the listed fields of a configuration, in some order and among
    any others. The framing and the namespaces are listed in turn. -/
def Listed (config : ClientConfig) (listed namesListed : String → Bool) (value : Value) : Prop :=
  ∃ framing namespaces all, config.framing.Listed (maxStoredNesting - 2) framing ∧
    config.namespaces.Listed namesListed namespaces ∧
    Lists fieldNames
      ((config.fieldsWith framing namespaces).filter fun field => listed field.1) all ∧
    value = .record all

/-- An object stands for the configuration it lists. -/
theorem ofJson?_listed {config : ClientConfig} (h : config.framing.FitsWord)
    {listed namesListed : String → Bool} {value : Value}
    (hlisted : config.Listed listed namesListed value) :
    ofJson? value = some (config.keep listed namesListed) := by
  rcases hlisted with ⟨framing, namespaces, all, hframing, hnamespaces, hlists, rfl⟩
  have hnodup := config.nodup_fieldsWith framing namespaces
  -- One container is open already where the framing is stored.
  have hstored : Framing.ofJson? (maxStoredNesting - 1) framing = some config.framing :=
    Framing.ofJson?_listed h hframing
  have hhost (absent : String) : orDefault absent Value.text? (all.lookup "host") =
      some (if listed "host" then config.host else absent) :=
    orDefault_listed hlists hnodup (by decide) rfl (Value.text?_text _) absent
  have hport (absent : UInt16) : orDefault absent port? (all.lookup "port") =
      some (if listed "port" then config.port else absent) :=
    orDefault_listed hlists hnodup (by decide) rfl (port?_ofNat config.port) absent
  have hframed (absent : Framing) :
      orDefault absent (Framing.ofJson? (maxStoredNesting - 1)) (all.lookup "framing") =
        some (if listed "framing" then config.framing else absent) :=
    orDefault_listed hlists hnodup (by decide) rfl hstored absent
  have hnamed (absent : Namespaces) :
      orDefault absent Namespaces.ofJson? (all.lookup "namespaces") =
        some (if listed "namespaces" then config.namespaces.keep namesListed else absent) :=
    orDefault_listed hlists hnodup (by decide) rfl (Namespaces.ofJson?_listed hnamespaces) absent
  simp only [ofJson?, hlists.record?_eq (nodup_filter hnodup listed), hhost, hport, hframed,
    hnamed, Option.bind_eq_bind, Option.bind_some, keep]

end ClientConfig

end RespBus
