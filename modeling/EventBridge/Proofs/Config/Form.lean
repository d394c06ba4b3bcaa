import EventBridge.Proofs.Config.Store
import EventBridge.Proofs.Toml.Datum

/-! # Tables of settings

  A table of settings has keys that are known, each of some kind, and all but one of them have a
  default.

  * `Kind.Takes` says of each kind what it takes for which setting. Of the numbers and of the texts
    it does not take all: `accepts_integer_iff` and `accepts_policy_iff` spell out which.
    `Kind.Reads` ties a reader to its kind.
  * A `Form` lists the known keys with their kinds, and the defaults. `Form.Fills` relates what a
    table says to the settings that it gives, key by key; `Form.fills_congr` says that nothing else
    of the table matters.
  * `Scripting.ofValue_eq_ok_iff` and `Logging.ofValue_eq_ok_iff`: to read a table is to fill its
    form. That each key is there once is taken from the document.
-/

namespace EventBridge.Config

open Toml (Datum Entries Key Origin Setting Span Value entryDatum?)

/-! ### Kinds of settings -/

/-- What a key may be set to. -/
inductive Kind where
  | text
  /-- A number that is not negative. -/
  | count
  | policy
  | switch
  deriving DecidableEq

/-- A table or an array with nothing in it. -/
inductive Hollow : Datum → Prop where
  | table : Hollow (.table Datum.nothing)
  | array : Hollow (.array [])

/-- What a kind takes, and for which setting. -/
inductive Kind.Takes : Kind → Datum → Setting → Prop where
  | text (s : String) : Takes .text (.string s) (.text s)
  | count {n : Nat} : n ≤ Int64.maxValue.toInt → Takes .count (.integer n) (.number n)
  | policy (policy : ErrorPolicy) : Takes .policy (.string policy.name) (.text policy.name)
  /-- The name may also be the only key of a table, with nothing behind it. -/
  | policyKey (policy : ErrorPolicy) {content : Datum} : Hollow content →
    Takes .policy (.table (Datum.only policy.name content)) (.text policy.name)
  | switch (b : Bool) : Takes .switch (.boolean b) (.switch b)

/-- What a kind takes for some setting. -/
def Kind.Accepts (kind : Kind) (datum : Datum) : Prop := ∃ setting, kind.Takes datum setting

/-- A number is accepted if it is not negative and has 64 bits. -/
theorem accepts_integer_iff {n : Int} :
    Kind.count.Accepts (.integer n) ↔ 0 ≤ n ∧ n ≤ Int64.maxValue.toInt := by
  constructor
  · rintro ⟨setting, htakes⟩
    generalize hdatum : Datum.integer n = datum at htakes
    cases htakes with
    | @count m hm =>
      obtain rfl := Datum.integer.inj hdatum
      exact ⟨Int.natCast_nonneg m, hm⟩
  · rintro ⟨hsign, hn⟩
    obtain ⟨m, rfl⟩ := Int.eq_ofNat_of_zero_le hsign
    exact ⟨_, .count hn⟩

/-- A text is accepted as a policy if it is the name of one. -/
theorem accepts_policy_iff {s : String} :
    Kind.policy.Accepts (.string s) ↔ s = "log" ∨ s = "propagate" := by
  constructor
  · rintro ⟨setting, htakes⟩
    generalize hdatum : Datum.string s = datum at htakes
    cases htakes with
    | policy p =>
      obtain rfl := Datum.string.inj hdatum
      cases p
      · exact .inl rfl
      · exact .inr rfl
    | policyKey p hhollow => cases hdatum
  · rintro (rfl | rfl)
    · exact ⟨_, .policy .log⟩
    · exact ⟨_, .policy .propagate⟩

/-- Policies have different names. -/
theorem eq_of_policy_name_eq {first second : ErrorPolicy} (h : first.name = second.name) :
    first = second := by
  have hfirst := ErrorPolicy.ofName?_name first
  rw [h, ErrorPolicy.ofName?_name] at hfirst
  exact (Option.some.inj hfirst).symm

/-- Nothing is taken for two settings. -/
theorem Kind.Takes.unique {kind : Kind} {datum : Datum} {first second : Setting}
    (hfirst : kind.Takes datum first) (hsecond : kind.Takes datum second) : first = second := by
  cases hfirst with
  | text s =>
    cases hsecond
    rfl
  | count _ =>
    generalize hdatum : Datum.integer _ = datum at hsecond
    cases hsecond with
    | count _ =>
      obtain rfl := Int.ofNat_inj.1 (Datum.integer.inj hdatum)
      rfl
  | policy p =>
    generalize hdatum : Datum.string _ = datum at hsecond
    cases hsecond with
    | policy q => rw [Datum.string.inj hdatum]
    | policyKey q _ => cases hdatum
  | policyKey p _ =>
    generalize hdatum : Datum.table _ = datum at hsecond
    cases hsecond with
    | policy q => cases hdatum
    | @policyKey q _ _ =>
      have hname := congrFun (Datum.table.inj hdatum) p.name
      by_contra hne
      rw [Datum.only_self, Datum.only_of_ne _ fun heq => hne (by rw [heq])] at hname
      cases hname
  | switch b =>
    cases hsecond
    rfl

/-! ### Reading a value -/

theorem text_eq_ok_iff (expected : String) {value : Value} {s : String} :
    text expected value = .ok s ↔ Kind.text.Takes value.datum (.text s) := by
  constructor
  · intro h
    unfold text at h
    split at h
    · obtain rfl := Except.ok.inj h
      exact .text _
    · cases h
  · intro h
    generalize hdatum : value.datum = datum at h
    obtain _ | _ | _ | _ | _ := h
    obtain ⟨span, rfl⟩ := Toml.datum_eq_string_iff.1 hdatum
    rfl

theorem switch_eq_ok_iff {value : Value} {b : Bool} :
    switch value = .ok b ↔ Kind.switch.Takes value.datum (.switch b) := by
  constructor
  · intro h
    unfold switch at h
    split at h
    · obtain rfl := Except.ok.inj h
      exact .switch _
    · cases h
  · intro h
    generalize hdatum : value.datum = datum at h
    obtain _ | _ | _ | _ | _ := h
    obtain ⟨span, rfl⟩ := Toml.datum_eq_boolean_iff.1 hdatum
    rfl

/-- Every integer of a document has 64 bits, so only its sign is looked at. -/
theorem count_eq_ok_iff (expected : String) {value : Value} (hregular : value.Regular) {n : Nat} :
    count expected value = .ok n ↔ Kind.count.Takes value.datum (.number n) := by
  constructor
  · intro h
    unfold count at h
    split at h
    · next span m =>
      split at h
      · cases h
      · next hsign =>
        obtain rfl := Except.ok.inj h
        have hfits : fits64 m = true := by
          cases hregular with
          | integer _ hfits => exact hfits
        obtain ⟨n, rfl⟩ := Int.eq_ofNat_of_zero_le (Int.not_lt.1 hsign)
        exact .count (of_decide_eq_true (Bool.and_eq_true_iff.1 hfits).2)
    · cases h
  · intro h
    generalize hdatum : value.datum = datum at h
    obtain _ | _ | _ | _ | _ := h
    obtain ⟨span, rfl⟩ := Toml.datum_eq_integer_iff.1 hdatum
    exact count_sets expected ⟨span, rfl⟩

theorem policyNamed_eq_ok_iff {span : Option Span} {name : String} {found : ErrorPolicy} :
    policyNamed span name = .ok found ↔ name = found.name := by
  constructor
  · intro h
    unfold policyNamed at h
    split at h
    · next p hname =>
      obtain rfl := Except.ok.inj h
      have hfound := List.find?_some (show ErrorPolicy.all.find? _ = some p from hname)
      exact (eq_of_beq hfound).symm
    · cases h
  · rintro rfl
    simp only [policyNamed, ErrorPolicy.ofName?_name]

theorem emptyContent_eq_ok_iff {value : Value} :
    emptyContent value = .ok () ↔ Hollow value.datum := by
  constructor
  · intro h
    unfold emptyContent at h
    split at h
    · exact .table
    · exact .array
    · exact .array
    all_goals cases h
  · intro h
    generalize hdatum : value.datum = datum at h
    cases h with
    | table =>
      obtain ⟨span, origin, entries, rfl, hnothing⟩ := Toml.datum_eq_table_iff.1 hdatum
      obtain rfl := Toml.entryDatum?_eq_nothing_iff.1 hnothing
      rfl
    | array =>
      obtain ⟨span, rfl⟩ | ⟨span, rfl⟩ := Toml.datum_eq_array_nil_iff.1 hdatum
      · rfl
      · rfl

theorem policy_eq_ok_iff {value : Value} (hregular : value.Regular) {found : ErrorPolicy} :
    policy value = .ok found ↔ Kind.policy.Takes value.datum (.text found.name) := by
  constructor
  · intro h
    unfold policy at h
    split at h
    · rw [policyNamed_eq_ok_iff.1 h]
      exact .policy _
    · split at h
      · next key content =>
        obtain ⟨named, hnamed, h⟩ := ok_of_bind h
        obtain ⟨_, hempty, h⟩ := ok_of_bind h
        obtain rfl := Except.ok.inj h
        have hhollow := emptyContent_eq_ok_iff.1 hempty
        have htakes := Kind.Takes.policyKey named hhollow
        rwa [← policyNamed_eq_ok_iff.1 hnamed] at htakes ⊢
      · cases h
      · cases h
    · cases h
  · intro h
    generalize hdatum : value.datum = datum at h
    generalize hsetting : Setting.text found.name = setting at h
    cases h with
    | policy p =>
      obtain rfl := eq_of_policy_name_eq (Setting.text.inj hsetting)
      obtain ⟨span, rfl⟩ := Toml.datum_eq_string_iff.1 hdatum
      exact policyNamed_eq_ok_iff.2 rfl
    | policyKey p hhollow =>
      obtain rfl := eq_of_policy_name_eq (Setting.text.inj hsetting)
      obtain ⟨span, origin, entries, rfl, honly⟩ := Toml.datum_eq_table_iff.1 hdatum
      obtain ⟨key, content, rfl, hname, rfl⟩ :=
        Toml.entryDatum?_eq_only (Value.regular_table_iff.1 hregular) honly
      simp only [policy, policyNamed_eq_ok_iff.2 hname, emptyContent_eq_ok_iff.2 hhollow, ok_bind]
      rfl

/-- How a value of some kind is read. -/
structure Kind.Reads {α : Type} (kind : Kind) (read : Value → Except Toml.Complaint α)
    (as : α → Setting) : Prop where
  eq_ok_iff : ∀ {value a}, value.Regular → (read value = .ok a ↔ kind.Takes value.datum (as a))
  only : ∀ {datum setting}, kind.Takes datum setting → ∃ a, as a = setting
  inj : ∀ {a b}, as a = as b → a = b

theorem reads_text (expected : String) : Kind.text.Reads (text expected) .text where
  eq_ok_iff := fun _ => text_eq_ok_iff expected
  only := by
    intro datum setting h
    cases h with
    | text s => exact ⟨s, rfl⟩
  inj := Setting.text.inj

theorem reads_switch : Kind.switch.Reads switch .switch where
  eq_ok_iff := fun _ => switch_eq_ok_iff
  only := by
    intro datum setting h
    cases h with
    | switch b => exact ⟨b, rfl⟩
  inj := Setting.switch.inj

theorem reads_count (expected : String) : Kind.count.Reads (count expected) .number where
  eq_ok_iff := fun hregular => count_eq_ok_iff expected hregular
  only := by
    intro datum setting h
    cases h with
    | @count n _ => exact ⟨n, rfl⟩
  inj := Setting.number.inj

theorem reads_policy : Kind.policy.Reads policy fun p => .text p.name where
  eq_ok_iff := fun hregular => policy_eq_ok_iff hregular
  only := by
    intro datum setting h
    cases h with
    | policy p => exact ⟨p, rfl⟩
    | policyKey p _ => exact ⟨p, rfl⟩
  inj := fun h => eq_of_policy_name_eq (Setting.text.inj h)

/-- What a kind accepts passes its check. -/
theorem Kind.Reads.discard {α : Type} {kind : Kind} {read : Value → Except Toml.Complaint α}
    {as : α → Setting} (h : kind.Reads read as) {value : Value} (hregular : value.Regular)
    (haccepts : kind.Accepts value.datum) : discard (read value) = .ok () := by
  obtain ⟨setting, htakes⟩ := haccepts
  obtain ⟨a, rfl⟩ := h.only htakes
  rw [(h.eq_ok_iff hregular).2 htakes, discard_ok]

/-! ### Forms -/

/-- A table of settings: the keys that it knows, and what is set where a key is not there. -/
structure Form where
  kinds : List (String × Kind)
  defaults : List (String × Setting)

namespace Form

/-- What a table says of a key, or else what its default says. -/
def given (form : Form) (datum? : String → Option Datum) (name : String) : Option Datum :=
  (datum? name).or ((form.defaults.lookup name).map Setting.datum)

/-- A key is set to what its kind takes for what is given. -/
def Supplies (form : Form) (datum? : String → Option Datum) (known : String × Kind)
    (setting : Setting) : Prop :=
  ∃ datum, form.given datum? known.1 = some datum ∧ known.2.Takes datum setting

/-- The settings are the known keys, in order, each set to what is supplied for it. -/
def Fills (form : Form) (datum? : String → Option Datum) (settings : List (String × Setting)) :
    Prop :=
  List.Forall₂ (fun known named => named.1 = known.1 ∧ form.Supplies datum? known named.2)
    form.kinds settings

/-- Every known key that is there says something that its kind accepts. -/
def Accepts (form : Form) (datum? : String → Option Datum) : Prop :=
  ∀ known ∈ form.kinds, ∀ datum, datum? known.1 = some datum → known.2.Accepts datum

/-- A default is one of the settings that the key may have. -/
structure Sound (form : Form) : Prop where
  takes : ∀ known ∈ form.kinds, ∀ setting, form.defaults.lookup known.1 = some setting →
    known.2.Takes setting.datum setting

variable {form : Form} {datum? : String → Option Datum} {known : String × Kind}

theorem given_of_some {name : String} {datum : Datum} (h : datum? name = some datum) :
    form.given datum? name = some datum := by
  rw [given, h, Option.some_or]

theorem given_of_none {name : String} (h : datum? name = none) :
    form.given datum? name = (form.defaults.lookup name).map Setting.datum := by
  rw [given, h, Option.none_or]

/-- A key has a setting where what it says is accepted, or where it is not there and has a
default. -/
theorem Accepts.exists_supplies (h : form.Accepts datum?) (hsound : form.Sound)
    (hknown : known ∈ form.kinds) (hgiven : (form.given datum? known.1).isSome) :
    ∃ setting, form.Supplies datum? known setting := by
  cases hentry : datum? known.1 with
  | some datum =>
    obtain ⟨setting, htakes⟩ := h known hknown datum hentry
    exact ⟨setting, datum, given_of_some hentry, htakes⟩
  | none =>
    rw [given_of_none hentry, Option.isSome_map] at hgiven
    obtain ⟨setting, hlookup⟩ := Option.isSome_iff_exists.1 hgiven
    refine ⟨setting, setting.datum, ?_, hsound.takes known hknown setting hlookup⟩
    rw [given_of_none hentry, hlookup, Option.map_some]

theorem Supplies.accepts {setting : Setting} (h : form.Supplies datum? known setting)
    {datum : Datum} (hentry : datum? known.1 = some datum) : known.2.Accepts datum := by
  obtain ⟨supplied, hgiven, htakes⟩ := h
  rw [given_of_some hentry] at hgiven
  rw [Option.some.inj hgiven]
  exact ⟨setting, htakes⟩

theorem Fills.accepts {settings : List (String × Setting)} (h : form.Fills datum? settings) :
    form.Accepts datum? := by
  unfold Fills at h
  unfold Accepts
  generalize form.kinds = kinds at h
  induction h with
  | nil => exact nofun
  | cons hfirst _ ih => exact List.forall_mem_cons.2 ⟨fun _ => hfirst.2.accepts, ih⟩

/-- The settings depend on nothing but what is given for the known keys. -/
theorem fills_congr {other? : String → Option Datum} {settings : List (String × Setting)}
    (h : ∀ known ∈ form.kinds, form.given datum? known.1 = form.given other? known.1) :
    form.Fills datum? settings ↔ form.Fills other? settings := by
  have hsupplies : ∀ known ∈ form.kinds, ∀ setting,
      form.Supplies datum? known setting ↔ form.Supplies other? known setting := by
    intro known hknown setting
    unfold Supplies
    rw [h known hknown]
  unfold Fills
  generalize form.kinds = kinds at hsupplies
  induction kinds generalizing settings with
  | nil => simp
  | cons known kinds ih =>
    obtain ⟨hfirst, hrest⟩ := List.forall_mem_cons.1 hsupplies
    simp only [List.forall₂_cons_left_iff, hfirst, ih hrest]

end Form

/-- Reading a setting is to find out what is supplied for it. -/
theorem setting_eq_ok_iff {α : Type} {form : Form} {entries : Entries} {name : String} {kind : Kind}
    {read : Value → Except Toml.Complaint α} {default a : α} {as : α → Setting}
    (hsound : form.Sound) (hknown : (name, kind) ∈ form.kinds) (hreads : kind.Reads read as)
    (hregular : entries.Regular) (hdefault : form.defaults.lookup name = some (as default)) :
    setting entries name read default = .ok a ↔
      form.Supplies (entryDatum? entries) (name, kind) (as a) := by
  have htakes := hsound.takes (name, kind) hknown (as default) hdefault
  unfold setting Form.Supplies Form.given
  rw [Toml.entryDatum?_eq]
  cases hget : entries.get? name with
  | some value => simpa using hreads.eq_ok_iff (hregular.get? hget)
  | none =>
    rw [hdefault]
    constructor
    · intro h
      obtain rfl := Except.ok.inj h
      exact ⟨_, rfl, htakes⟩
    · rintro ⟨datum, hdatum, hother⟩
      obtain rfl := Option.some.inj hdatum
      rw [hreads.inj (htakes.unique hother)]

/-- Entries of different names pass a check if what is found under each name does. -/
theorem checkAll_eq_ok {check : Check} {entries : Entries} (hregular : entries.Regular)
    (h : ∀ key value, entries.get? key.name = some value → check key value = .ok ()) :
    checkAll check entries = .ok () := by
  have hall : ∀ entry ∈ entries, check entry.1 entry.2 = .ok () :=
    fun entry hentry => h entry.1 entry.2 (hregular.get?_of_mem hentry)
  clear h hregular
  induction entries with
  | nil => rfl
  | cons entry rest ih =>
    obtain ⟨hfirst, hrest⟩ := List.forall_mem_cons.1 hall
    obtain ⟨key, value⟩ := entry
    rw [checkAll, hfirst]
    exact ih hrest

/-! ### The two tables of settings -/

/-- The settings of a script. Only the path of the script has no default. -/
def Scripting.form : Form where
  kinds := [("script", .text), ("namespace", .text), ("max_payload_bytes", .count),
    ("max_table_entries", .count), ("error_policy", .policy), ("hot_reload", .switch)]
  defaults := (Scripting.new "").settings.tail

/-- The settings of the log. -/
def Logging.form : Form where
  kinds := [("level", .text), ("file", .switch), ("dir", .text), ("max_file_bytes", .count)]
  defaults := Logging.default.settings

theorem Scripting.form_sound : Scripting.form.Sound where
  takes := by
    intro known hknown setting hlookup
    simp only [Scripting.form, List.mem_cons, List.not_mem_nil, or_false] at hknown
    rcases hknown with rfl | rfl | rfl | rfl | rfl | rfl <;> cases hlookup
    · exact .text _
    · exact .count (by decide)
    · exact .count (by decide)
    · exact .policy _
    · exact .switch _

theorem Logging.form_sound : Logging.form.Sound where
  takes := by
    intro known hknown setting hlookup
    simp only [Logging.form, List.mem_cons, List.not_mem_nil, or_false] at hknown
    rcases hknown with rfl | rfl | rfl | rfl <;> cases hlookup
    · exact .text _
    · exact .switch _
    · exact .text _
    · exact .count (by decide)

section Tables

variable {span : Option Span} {origin : Origin} {entries : Entries}

/-- Entries of which the form accepts what they say pass the checks that accept such values. -/
theorem checkAll_of_accepts {form : Form} {check : Check} (hregular : entries.Regular)
    (h : form.Accepts (entryDatum? entries))
    (hcheck : ∀ key value, Value.Regular value →
      (∀ kind, (key.name, kind) ∈ form.kinds → kind.Accepts value.datum) →
      check key value = .ok ()) : checkAll check entries = .ok () := by
  refine checkAll_eq_ok hregular fun key value hget => ?_
  exact hcheck key value (hregular.get? hget) fun kind hkind =>
    h _ hkind _ (Toml.entryDatum?_of_some hget)

theorem Scripting.check_eq_ok {key : Key} {value : Value} (hregular : value.Regular)
    (h : ∀ kind, (key.name, kind) ∈ Scripting.form.kinds → kind.Accepts value.datum) :
    Scripting.check key value = .ok () := by
  unfold Scripting.check
  split
  · next hname => exact (reads_text _).discard hregular (h .text (by rw [hname]; decide))
  · next hname => exact (reads_text _).discard hregular (h .text (by rw [hname]; decide))
  · next hname => exact (reads_count _).discard hregular (h .count (by rw [hname]; decide))
  · next hname => exact (reads_count _).discard hregular (h .count (by rw [hname]; decide))
  · next hname => exact reads_policy.discard hregular (h .policy (by rw [hname]; decide))
  · next hname => exact reads_switch.discard hregular (h .switch (by rw [hname]; decide))
  · rfl

theorem Logging.check_eq_ok {key : Key} {value : Value} (hregular : value.Regular)
    (h : ∀ kind, (key.name, kind) ∈ Logging.form.kinds → kind.Accepts value.datum) :
    Logging.check key value = .ok () := by
  unfold Logging.check
  split
  · next hname => exact (reads_text _).discard hregular (h .text (by rw [hname]; decide))
  · next hname => exact reads_switch.discard hregular (h .switch (by rw [hname]; decide))
  · next hname => exact (reads_text _).discard hregular (h .text (by rw [hname]; decide))
  · next hname => exact (reads_count _).discard hregular (h .count (by rw [hname]; decide))
  · rfl

/-- The setting of a key that has no default. -/
def required {α : Type} (entries : Entries) (name : String) (read : Value → Except Toml.Complaint α)
    (missing : Toml.Complaint) : Except Toml.Complaint α :=
  match entries.get? name with
  | some value => read value
  | none => .error missing

theorem required_eq_ok_iff {α : Type} {form : Form} {name : String} {kind : Kind}
    {read : Value → Except Toml.Complaint α} {a : α} {as : α → Setting} {missing : Toml.Complaint}
    (hreads : kind.Reads read as) (hregular : entries.Regular)
    (hdefault : form.defaults.lookup name = none) :
    required entries name read missing = .ok a ↔
      form.Supplies (entryDatum? entries) (name, kind) (as a) := by
  unfold required Form.Supplies Form.given
  rw [Toml.entryDatum?_eq]
  cases hget : entries.get? name with
  | some value => simpa using hreads.eq_ok_iff (hregular.get? hget)
  | none => simp [hdefault]

/-- The steps in which the table of a script is read. -/
theorem Scripting.ofValue_table : Scripting.ofValue (.table span origin entries) = do
    checkAll Scripting.check entries
    let script ← required entries "script" (text "path string")
      ⟨span, (missingScript (.table span origin entries)).message⟩
    let base := Scripting.new script
    let namespaceName ← setting entries "namespace" (text "a string") base.namespaceName
    let maxPayloadBytes ← setting entries "max_payload_bytes" (count "usize") base.maxPayloadBytes
    let maxTableEntries ← setting entries "max_table_entries" (count "usize") base.maxTableEntries
    let errorPolicy ← setting entries "error_policy" policy base.errorPolicy
    let hotReload ← setting entries "hot_reload" switch base.hotReload
    return ⟨script, namespaceName, maxPayloadBytes, maxTableEntries, errorPolicy, hotReload⟩ := by
  simp only [Scripting.ofValue, entriesOf, ok_bind, required]
  cases entries.get? "script" <;> rfl

/-- The table of a script is read as the settings that fill the form. -/
theorem Scripting.ofValue_eq_ok_iff (hregular : entries.Regular) {scripting : Scripting} :
    Scripting.ofValue (.table span origin entries) = .ok scripting ↔
      Scripting.form.Fills (entryDatum? entries) scripting.settings := by
  have hscript (missing : Toml.Complaint) (s : String) :
      required entries "script" (text "path string") missing = .ok s ↔ _ :=
    required_eq_ok_iff (reads_text _) hregular (show form.defaults.lookup "script" = none from rfl)
  have hnamespace (s a : String) :
      setting entries "namespace" (text "a string") (Scripting.new s).namespaceName = .ok a ↔ _ :=
    setting_eq_ok_iff form_sound (by decide) (reads_text _) hregular rfl
  have hpayload (s : String) (a : Nat) :
      setting entries "max_payload_bytes" (count "usize") (Scripting.new s).maxPayloadBytes =
        .ok a ↔ _ :=
    setting_eq_ok_iff form_sound (by decide) (reads_count _) hregular rfl
  have htable (s : String) (a : Nat) :
      setting entries "max_table_entries" (count "usize") (Scripting.new s).maxTableEntries =
        .ok a ↔ _ :=
    setting_eq_ok_iff form_sound (by decide) (reads_count _) hregular rfl
  have hpolicy (s : String) (a : ErrorPolicy) :
      setting entries "error_policy" policy (Scripting.new s).errorPolicy = .ok a ↔ _ :=
    setting_eq_ok_iff form_sound (by decide) reads_policy hregular rfl
  have hreload (s : String) (a : Bool) :
      setting entries "hot_reload" switch (Scripting.new s).hotReload = .ok a ↔ _ :=
    setting_eq_ok_iff form_sound (by decide) reads_switch hregular rfl
  rw [Scripting.ofValue_table]
  simp only [bind_eq_ok_iff, hscript, hnamespace, hpayload, htable, hpolicy, hreload]
  constructor
  · rintro ⟨_, -, script, h₁, namespaceName, h₂, payload, h₃, table, h₄, errorPolicy, h₅, reload,
      h₆, hall⟩
    obtain rfl := Except.ok.inj hall
    exact .cons ⟨rfl, h₁⟩ (.cons ⟨rfl, h₂⟩ (.cons ⟨rfl, h₃⟩ (.cons ⟨rfl, h₄⟩ (.cons ⟨rfl, h₅⟩
      (.cons ⟨rfl, h₆⟩ .nil)))))
  · intro h
    have hcheck := checkAll_of_accepts hregular h.accepts fun _ _ => Scripting.check_eq_ok
    obtain _ | ⟨⟨-, h₁⟩, _ | ⟨⟨-, h₂⟩, _ | ⟨⟨-, h₃⟩, _ | ⟨⟨-, h₄⟩, _ | ⟨⟨-, h₅⟩,
      _ | ⟨⟨-, h₆⟩, -⟩⟩⟩⟩⟩⟩ := h
    exact ⟨(), hcheck, _, h₁, _, h₂, _, h₃, _, h₄, _, h₅, _, h₆, rfl⟩

/-- The table of the log is read as the settings that fill the form. -/
theorem Logging.ofValue_eq_ok_iff (hregular : entries.Regular) {logging : Logging} :
    Logging.ofValue (.table span origin entries) = .ok logging ↔
      Logging.form.Fills (entryDatum? entries) logging.settings := by
  have hlevel (a : String) :
      setting entries "level" (text "a string") Logging.default.level = .ok a ↔ _ :=
    setting_eq_ok_iff form_sound (by decide) (reads_text _) hregular rfl
  have hfile (a : Bool) : setting entries "file" switch Logging.default.file = .ok a ↔ _ :=
    setting_eq_ok_iff form_sound (by decide) reads_switch hregular rfl
  have hdir (a : String) :
      setting entries "dir" (text "path string") Logging.default.dir = .ok a ↔ _ :=
    setting_eq_ok_iff form_sound (by decide) (reads_text _) hregular rfl
  have hsize (a : Nat) :
      setting entries "max_file_bytes" (count "u64") Logging.default.maxFileBytes = .ok a ↔ _ :=
    setting_eq_ok_iff form_sound (by decide) (reads_count _) hregular rfl
  simp only [Logging.ofValue, entriesOf, ok_bind, bind_eq_ok_iff, hlevel, hfile, hdir, hsize]
  constructor
  · rintro ⟨_, -, level, h₁, file, h₂, dir, h₃, size, h₄, hall⟩
    obtain rfl := Except.ok.inj hall
    exact .cons ⟨rfl, h₁⟩ (.cons ⟨rfl, h₂⟩ (.cons ⟨rfl, h₃⟩ (.cons ⟨rfl, h₄⟩ .nil)))
  · intro h
    have hcheck := checkAll_of_accepts hregular h.accepts fun _ _ => Logging.check_eq_ok
    obtain _ | ⟨⟨-, h₁⟩, _ | ⟨⟨-, h₂⟩, _ | ⟨⟨-, h₃⟩, _ | ⟨⟨-, h₄⟩, -⟩⟩⟩⟩ := h
    exact ⟨(), hcheck, _, h₁, _, h₂, _, h₃, _, h₄, rfl⟩

end Tables

/-! ### What can be read -/

/-- An accepted key has a setting of the type that its kind is read as. -/
theorem Kind.Reads.exists_supplies {α : Type} {form : Form} {datum? : String → Option Datum}
    {name : String} {kind : Kind} {read : Value → Except Toml.Complaint α} {as : α → Setting}
    (h : kind.Reads read as) (hsound : form.Sound) (haccepts : form.Accepts datum?)
    (hknown : (name, kind) ∈ form.kinds) (hgiven : (form.given datum? name).isSome) :
    ∃ a, form.Supplies datum? (name, kind) (as a) := by
  obtain ⟨setting, hsupplies⟩ := haccepts.exists_supplies hsound hknown hgiven
  obtain ⟨datum, -, htakes⟩ := id hsupplies
  obtain ⟨a, rfl⟩ := h.only htakes
  exact ⟨a, hsupplies⟩

section Fills

variable {datum? : String → Option Datum}

/-- The table of a script gives settings if there is a script and every known key is accepted. -/
theorem Scripting.exists_fills_iff :
    (∃ scripting : Scripting, Scripting.form.Fills datum? scripting.settings) ↔
      (datum? "script").isSome ∧ Scripting.form.Accepts datum? := by
  constructor
  · rintro ⟨scripting, hfills⟩
    refine ⟨?_, hfills.accepts⟩
    obtain _ | ⟨⟨-, datum, hgiven, -⟩, -⟩ := hfills
    simpa [Form.given, Scripting.form, Scripting.settings] using congrArg Option.isSome hgiven
  · rintro ⟨hscript, haccepts⟩
    have hdefault : ∀ name setting, Scripting.form.defaults.lookup name = some setting →
        (Scripting.form.given datum? name).isSome := by
      intro name setting hlookup
      simp [Form.given, hlookup]
    have hgiven : (Scripting.form.given datum? "script").isSome := by
      simp [Form.given, hscript]
    obtain ⟨script, h₁⟩ := (reads_text "").exists_supplies form_sound haccepts (by decide) hgiven
    obtain ⟨namespaceName, h₂⟩ := (reads_text "").exists_supplies form_sound haccepts (by decide)
      (hdefault "namespace" _ rfl)
    obtain ⟨payload, h₃⟩ := (reads_count "").exists_supplies form_sound haccepts (by decide)
      (hdefault "max_payload_bytes" _ rfl)
    obtain ⟨table, h₄⟩ := (reads_count "").exists_supplies form_sound haccepts (by decide)
      (hdefault "max_table_entries" _ rfl)
    obtain ⟨errorPolicy, h₅⟩ := reads_policy.exists_supplies form_sound haccepts (by decide)
      (hdefault "error_policy" _ rfl)
    obtain ⟨reload, h₆⟩ := reads_switch.exists_supplies form_sound haccepts (by decide)
      (hdefault "hot_reload" _ rfl)
    exact ⟨⟨script, namespaceName, payload, table, errorPolicy, reload⟩,
      .cons ⟨rfl, h₁⟩ (.cons ⟨rfl, h₂⟩ (.cons ⟨rfl, h₃⟩ (.cons ⟨rfl, h₄⟩ (.cons ⟨rfl, h₅⟩
        (.cons ⟨rfl, h₆⟩ .nil)))))⟩

/-- The table of the log gives settings if every known key is accepted. -/
theorem Logging.exists_fills_iff :
    (∃ logging : Logging, Logging.form.Fills datum? logging.settings) ↔
      Logging.form.Accepts datum? := by
  constructor
  · rintro ⟨logging, hfills⟩
    exact hfills.accepts
  · intro haccepts
    have hdefault : ∀ name setting, Logging.form.defaults.lookup name = some setting →
        (Logging.form.given datum? name).isSome := by
      intro name setting hlookup
      simp [Form.given, hlookup]
    obtain ⟨level, h₁⟩ := (reads_text "").exists_supplies form_sound haccepts (by decide)
      (hdefault "level" _ rfl)
    obtain ⟨file, h₂⟩ := reads_switch.exists_supplies form_sound haccepts (by decide)
      (hdefault "file" _ rfl)
    obtain ⟨dir, h₃⟩ := (reads_text "").exists_supplies form_sound haccepts (by decide)
      (hdefault "dir" _ rfl)
    obtain ⟨size, h₄⟩ := (reads_count "").exists_supplies form_sound haccepts (by decide)
      (hdefault "max_file_bytes" _ rfl)
    exact ⟨⟨level, file, dir, size⟩,
      .cons ⟨rfl, h₁⟩ (.cons ⟨rfl, h₂⟩ (.cons ⟨rfl, h₃⟩ (.cons ⟨rfl, h₄⟩ .nil)))⟩

/-- Where a script is all that a table says, every other setting has its default. -/
theorem Scripting.fills_only_iff {s : String} {scripting : Scripting} :
    Scripting.form.Fills (Datum.only "script" (.string s)) scripting.settings ↔
      scripting = .new s := by
  let entries : Entries := [(⟨"script", ⟨0, 0⟩⟩, .string ⟨0, 0⟩ s)]
  have hregular : entries.Regular := ⟨by simp [entries], List.forall_mem_singleton.2 (.string _ _)⟩
  have hread : Scripting.ofValue (.table none .explicit entries) = .ok scripting ↔
      Scripting.form.Fills (Datum.only "script" (.string s)) scripting.settings :=
    Scripting.ofValue_eq_ok_iff hregular
  have hnew : Scripting.ofValue (.table none .explicit entries) = .ok (.new s) := rfl
  rw [← hread, hnew]
  simp [eq_comm]

/-- Where a table says nothing about the log, or is not there, every setting has its default. -/
theorem Logging.fills_nothing_iff {logging : Logging} :
    Logging.form.Fills Datum.nothing logging.settings ↔ logging = .default := by
  have hread : Logging.ofValue (.table none .explicit []) = .ok logging ↔
      Logging.form.Fills Datum.nothing logging.settings :=
    Logging.ofValue_eq_ok_iff Entries.regular_nil
  have hdefault : Logging.ofValue (.table none .explicit []) = .ok .default := rfl
  rw [← hread, hdefault]
  simp [eq_comm]

end Fills

end EventBridge.Config
