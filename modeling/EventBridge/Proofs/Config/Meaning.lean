import EventBridge.Proofs.Config.Form
import Mathlib.Logic.Relation

/-! # What the text of a configuration means

  Of a document, the settings take what it says of the keys that they know, and nothing else:
  neither where these stand nor what stands beside them.

  * `Means` relates what a document says to the settings: both forms are filled by what stands under
    their names. `parse_eq_ok_iff` says that this is what reading a text comes to.
  * `SameSettings` compares what two documents give for the known keys; `means_congr` is about that.
  * `Edit` is what can be done to a document without a change of what it means. `Edit.same` is about
    one edit, and what follows from it holds after any number of them.
-/

namespace EventBridge.Config

open Toml (Datum Entries Key Origin Setting Span Value entryDatum?)

/-! ### Documents -/

/-- The tables of settings by name. -/
def forms : List (String × Form) := [("scripting", Scripting.form), ("logging", Logging.form)]

theorem forall_forms {P : String × Form → Prop} :
    (∀ part ∈ forms, P part) ↔ P ("scripting", Scripting.form) ∧ P ("logging", Logging.form) := by
  simp [forms]

theorem scripting_mem_forms : ("scripting", Scripting.form) ∈ forms := List.mem_cons_self

theorem logging_mem_forms : ("logging", Logging.form) ∈ forms :=
  List.mem_cons_of_mem _ List.mem_cons_self

/-- No two tables of settings have one name. -/
theorem forms_unique {first second : String × Form} (hfirst : first ∈ forms)
    (hsecond : second ∈ forms) (h : first.1 = second.1) : first = second := by
  rcases List.mem_pair.1 hfirst with rfl | rfl <;> rcases List.mem_pair.1 hsecond with rfl | rfl
  · rfl
  · exact absurd h (by decide)
  · exact absurd h (by decide)
  · rfl

/-- What the table of a name says, nothing if there is no such table. -/
def under (said : String → Option Datum) (name : String) : String → Option Datum :=
  match said name with
  | some (.table inner) => inner
  | _ => Datum.nothing

/-- A text that is a document, with tables where tables of settings are due. -/
structure Source (text : String) (root : Entries) : Prop where
  parsed : ∃ span, Toml.parse text = .ok (.table (some span) .explicit root)
  tables : ∀ part ∈ forms, ∀ value, root.get? part.1 = some value →
    ∃ span origin entries, value = .table span origin entries

/-- The settings are those that fill the forms. -/
structure Means (said : String → Option Datum) (config : Config) : Prop where
  scripting : Scripting.form.Fills (under said "scripting") config.scripting.settings
  logging : Logging.form.Fills (under said "logging") config.logging.settings

/-- There is a script, and every known key that is there is accepted. -/
structure Acceptable (said : String → Option Datum) : Prop where
  scripting : (said "scripting").isSome
  script : (under said "scripting" "script").isSome
  accepts : ∀ part ∈ forms, part.2.Accepts (under said part.1)

/-- Both documents give the same for every known key. -/
def SameSettings (said others : String → Option Datum) : Prop :=
  ∀ part ∈ forms, ∀ known ∈ part.2.kinds,
    part.2.given (under said part.1) known.1 = part.2.given (under others part.1) known.1

section Under

variable {said others : String → Option Datum} {name : String} {config : Config}

theorem under_of_none (h : said name = none) : under said name = Datum.nothing := by
  rw [under, h]

theorem under_of_table {inner : String → Option Datum} (h : said name = some (.table inner)) :
    under said name = inner := by
  rw [under, h]

theorem under_congr (h : said name = others name) : under said name = under others name := by
  rw [under, under, h]

/-- A document means something if and only if it is acceptable. -/
theorem exists_means_iff : (∃ config, Means said config) ↔ Acceptable said := by
  constructor
  · rintro ⟨config, hscripting, hlogging⟩
    obtain ⟨hscript, haccepts⟩ := Scripting.exists_fills_iff.1 ⟨_, hscripting⟩
    refine ⟨?_, hscript, forall_forms.2 ⟨haccepts, hlogging.accepts⟩⟩
    by_contra hnone
    rw [under_of_none (Option.not_isSome_iff_eq_none.1 hnone)] at hscript
    cases hscript
  · rintro ⟨-, hscript, haccepts⟩
    obtain ⟨hscripting, hlogging⟩ := forall_forms.1 haccepts
    obtain ⟨scripting, hscripting⟩ := Scripting.exists_fills_iff.2 ⟨hscript, hscripting⟩
    obtain ⟨logging, hlogging⟩ := Logging.exists_fills_iff.2 hlogging
    exact ⟨⟨scripting, logging⟩, hscripting, hlogging⟩

/-- What a document means depends on nothing but what it gives for the known keys. -/
theorem means_congr (h : SameSettings said others) : Means said config ↔ Means others config := by
  obtain ⟨hscripting, hlogging⟩ := forall_forms.1 h
  constructor
  · rintro ⟨hfirst, hsecond⟩
    exact ⟨(Form.fills_congr hscripting).1 hfirst, (Form.fills_congr hlogging).1 hsecond⟩
  · rintro ⟨hfirst, hsecond⟩
    exact ⟨(Form.fills_congr hscripting).2 hfirst, (Form.fills_congr hlogging).2 hsecond⟩

end Under

/-! ### Reading a document -/

/-- The steps in which a document is read. -/
theorem ofValue_table (span : Option Span) (origin : Origin) (root : Entries) :
    ofValue (.table span origin root) = do
      checkAll check root
      let scripting ← required root "scripting" Scripting.ofValue
        ⟨span, (Document.Mismatch.missingField "scripting").message⟩
      let logging ← setting root "logging" Logging.ofValue Logging.default
      return ⟨scripting, logging⟩ := by
  simp only [ofValue, entriesOf, ok_bind, required]
  cases root.get? "scripting" <;> rfl

section Root

variable {text : String} {root : Entries}

theorem Source.regular (h : Source text root) : root.Regular := by
  obtain ⟨span, hparsed⟩ := h.parsed
  obtain ⟨_, _, heq, hregular⟩ := Toml.regular_parse hparsed
  cases heq
  exact hregular

/-- A table of settings that is there, with what it says. -/
theorem Source.table (h : Source text root) {part : String × Form} (hpart : part ∈ forms)
    {value : Value} (hget : root.get? part.1 = some value) :
    ∃ span origin entries, value = .table span origin entries ∧ Entries.Regular entries ∧
      under (entryDatum? root) part.1 = entryDatum? entries := by
  obtain ⟨span, origin, entries, rfl⟩ := h.tables part hpart value hget
  exact ⟨span, origin, entries, rfl, Value.regular_table_iff.1 (h.regular.get? hget),
    under_of_table (Toml.entryDatum?_of_some hget)⟩

theorem Source.scripting_eq_ok_iff (h : Source text root) (missing : Toml.Complaint)
    {scripting : Scripting} :
    required root "scripting" Scripting.ofValue missing = .ok scripting ↔
      Scripting.form.Fills (under (entryDatum? root) "scripting") scripting.settings := by
  unfold required
  cases hget : root.get? "scripting" with
  | some value =>
    obtain ⟨span, origin, entries, rfl, hregular, hunder⟩ :=
      h.table scripting_mem_forms hget
    rw [hunder]
    exact Scripting.ofValue_eq_ok_iff hregular
  | none =>
    rw [under_of_none (Toml.entryDatum?_of_none hget)]
    constructor
    · intro hread
      cases hread
    · intro hfills
      cases (Scripting.exists_fills_iff.1 ⟨_, hfills⟩).1

theorem Source.logging_eq_ok_iff (h : Source text root) {logging : Logging} :
    setting root "logging" Logging.ofValue Logging.default = .ok logging ↔
      Logging.form.Fills (under (entryDatum? root) "logging") logging.settings := by
  unfold setting
  cases hget : root.get? "logging" with
  | some value =>
    obtain ⟨span, origin, entries, rfl, hregular, hunder⟩ :=
      h.table logging_mem_forms hget
    rw [hunder]
    exact Logging.ofValue_eq_ok_iff hregular
  | none =>
    rw [under_of_none (Toml.entryDatum?_of_none hget), Logging.fills_nothing_iff]
    simp [eq_comm]

/-- To read a text is to fill the forms with what the document says. -/
theorem parse_eq_ok_iff (h : Source text root) {config : Config} :
    parse text = .ok config ↔ Means (entryDatum? root) config := by
  obtain ⟨span, hparsed⟩ := h.parsed
  rw [parse, hparsed]
  dsimp only
  rw [ofValue_table]
  simp only [bind_eq_ok_iff, h.scripting_eq_ok_iff, h.logging_eq_ok_iff]
  constructor
  · rintro ⟨_, -, scripting, hscripting, logging, hlogging, hall⟩
    obtain rfl := Except.ok.inj hall
    exact ⟨hscripting, hlogging⟩
  · rintro ⟨hscripting, hlogging⟩
    refine ⟨(), ?_, _, hscripting, _, hlogging, rfl⟩
    -- Both tables pass their checks, because both of them can be read.
    refine checkAll_eq_ok h.regular fun key value hget => ?_
    unfold check
    split
    · next hname =>
      rw [hname] at hget
      have hread := (h.scripting_eq_ok_iff ⟨none, ""⟩).2 hscripting
      rw [required, hget] at hread
      dsimp only at hread
      rw [hread, discard_ok]
    · next hname =>
      rw [hname] at hget
      have hread := h.logging_eq_ok_iff.2 hlogging
      rw [setting, hget] at hread
      dsimp only at hread
      rw [hread, discard_ok]
    · rfl

/-- Texts that give the same for the known keys are read as the same settings, or as none. -/
theorem toOption_parse_eq {other : String} {others : Entries} (h : Source text root)
    (hother : Source other others)
    (hsame : SameSettings (entryDatum? root) (entryDatum? others)) :
    (parse text).toOption = (parse other).toOption := by
  refine toOption_congr fun config => ?_
  rw [parse_eq_ok_iff h, parse_eq_ok_iff hother, means_congr hsame]

end Root

/-! ### Edits -/

/-- What can be done to the entries of a table of settings. -/
inductive Form.Edit (form : Form) : Entries → Entries → Prop where
  | reordered {entries others : Entries} : (entries.map fun entry => entry.1.name).Nodup →
    entries.Perm others → Edit form entries others
  /-- The same is said in other places or in another way. -/
  | respelt {entries others : Entries} : List.Forall₂ (fun entry other =>
    entry.1.name = other.1.name ∧ entry.2.datum = other.2.datum) entries others →
    Edit form entries others
  | unknown {entries : Entries} {key : Key} (value : Value) :
    key.name ∉ form.kinds.map Prod.fst → Edit form entries ((key, value) :: entries)
  /-- A default is written out. -/
  | spelledOut {entries : Entries} {key : Key} {value : Value} {setting : Setting} :
    entries.get? key.name = none → form.defaults.lookup key.name = some setting →
    value.datum = setting.datum → Edit form entries ((key, value) :: entries)

/-- What can be done to the entries of a document. -/
inductive Edit : Entries → Entries → Prop where
  | reordered {root others : Entries} : (root.map fun entry => entry.1.name).Nodup →
    root.Perm others → Edit root others
  | respelt {root others : Entries} : List.Forall₂ (fun entry other =>
    entry.1.name = other.1.name ∧ entry.2.datum = other.2.datum) root others → Edit root others
  | unknown {root : Entries} {key : Key} (value : Value) :
    key.name ∉ forms.map Prod.fst → Edit root ((key, value) :: root)
  /-- A table for the log is put there, with nothing in it. -/
  | emptyLogging {root : Entries} {key : Key} (span : Option Span) (origin : Origin) :
    root.get? "logging" = none → key.name = "logging" →
    Edit root ((key, .table span origin []) :: root)
  /-- A table of settings is edited. -/
  | within {root : Entries} {part : String × Form} {span : Option Span} {origin : Origin}
    {entries others : Entries} : part ∈ forms →
    root.get? part.1 = some (.table span origin entries) → part.2.Edit entries others →
    Edit root (root.replace part.1 (.table span origin others))

/-- An edited table gives the same for its known keys. -/
theorem Form.Edit.same {form : Form} {entries others : Entries} (h : form.Edit entries others) :
    ∀ known ∈ form.kinds,
      form.given (entryDatum? entries) known.1 = form.given (entryDatum? others) known.1 := by
  intro known hknown
  cases h with
  | reordered hdistinct hperm => rw [Toml.entryDatum?_perm hdistinct hperm]
  | respelt hsame => rw [Toml.entryDatum?_congr hsame]
  | @unknown key value hkey =>
    have hne : key.name ≠ known.1 := fun heq => hkey (heq ▸ List.mem_map_of_mem hknown)
    rw [given, given, Toml.entryDatum?_cons, if_neg hne]
  | @spelledOut key value setting hnone hdefault hvalue =>
    by_cases hname : key.name = known.1
    · rw [hname] at hnone hdefault
      rw [given_of_none (Toml.entryDatum?_of_none hnone), hdefault, Option.map_some, given,
        Toml.entryDatum?_cons, if_pos hname, Option.some_or, hvalue]
    · rw [given, given, Toml.entryDatum?_cons, if_neg hname]

/-- An edited document gives the same for all known keys. -/
theorem Edit.same {root others : Entries} (h : Edit root others) :
    SameSettings (entryDatum? root) (entryDatum? others) := by
  intro part hpart known hknown
  cases h with
  | reordered hdistinct hperm => rw [Toml.entryDatum?_perm hdistinct hperm]
  | respelt hsame => rw [Toml.entryDatum?_congr hsame]
  | @unknown key value hkey =>
    have hne : key.name ≠ part.1 := fun heq => hkey (heq ▸ List.mem_map_of_mem hpart)
    rw [under_congr]
    rw [Toml.entryDatum?_cons, if_neg hne]
  | @emptyLogging key span origin hnone hkey =>
    by_cases hname : key.name = part.1
    · have hbefore : entryDatum? root part.1 = none :=
        Toml.entryDatum?_of_none (by rw [← hname, hkey, hnone])
      have hafter : entryDatum? ((key, .table span origin []) :: root) part.1 =
          some (.table Datum.nothing) := by
        rw [Toml.entryDatum?_cons, if_pos hname]
        rfl
      rw [under_of_none hbefore, under_of_table hafter]
    · rw [under_congr]
      rw [Toml.entryDatum?_cons, if_neg hname]
  | @within edited span origin entries inner hedited hget hedit =>
    rw [Toml.entryDatum?_replace _ hget]
    by_cases hname : part.1 = edited.1
    · -- The form of a name is one.
      obtain rfl : part = edited := forms_unique hpart hedited hname
      have hbefore : entryDatum? root part.1 = some (.table (entryDatum? entries)) :=
        Toml.entryDatum?_of_some hget
      have hafter : Function.update (entryDatum? root) part.1
          (some (Value.table span origin inner).datum) part.1 =
            some (.table (entryDatum? inner)) := Function.update_self ..
      rw [under_of_table hbefore, under_of_table hafter]
      exact hedit.same known hknown
    · rw [under_congr]
      rw [Function.update_of_ne hname]

/-- So does a document after any number of edits, and before them. -/
theorem sameSettings_of_edits {root others : Entries} (h : Relation.EqvGen Edit root others) :
    SameSettings (entryDatum? root) (entryDatum? others) := by
  induction h with
  | rel _ _ hedit => exact hedit.same
  | refl _ => exact fun _ _ _ _ => rfl
  | symm _ _ _ ih => exact fun part hpart known hknown => (ih part hpart known hknown).symm
  | trans _ _ _ _ _ ihfirst ihsecond =>
    exact fun part hpart known hknown =>
      (ihfirst part hpart known hknown).trans (ihsecond part hpart known hknown)

/-- A text means the values of its known keys. It is read as the settings that these give, if there
is a script and each of them is accepted; what gives the same for the known keys is read as the
same, and so is what edits lead to. Where nothing is said of the log, or nothing but the path of the
script is said of the script, the settings are the default ones. -/
theorem settings_of_text {text : String} {root : Entries} (h : Source text root) :
    (∀ config, parse text = .ok config ↔ Means (entryDatum? root) config) ∧
    ((∃ config, parse text = .ok config) ↔ Acceptable (entryDatum? root)) ∧
    (∀ other others, Source other others →
      SameSettings (entryDatum? root) (entryDatum? others) ∨ Relation.EqvGen Edit root others →
      (parse text).toOption = (parse other).toOption) ∧
    ∀ config, parse text = .ok config →
      (under (entryDatum? root) "logging" = Datum.nothing → config.logging = .default) ∧
      ∀ s, under (entryDatum? root) "scripting" = Datum.only "script" (.string s) →
        config.scripting = .new s := by
  refine ⟨fun config => parse_eq_ok_iff h, ?_, ?_, ?_⟩
  · simp only [parse_eq_ok_iff h, exists_means_iff]
  · rintro other others hother (hsame | hedits)
    · exact toOption_parse_eq h hother hsame
    · exact toOption_parse_eq h hother (sameSettings_of_edits hedits)
  · intro config hparse
    obtain ⟨hscripting, hlogging⟩ := (parse_eq_ok_iff h).1 hparse
    constructor
    · intro hnothing
      rw [hnothing] at hlogging
      exact Logging.fills_nothing_iff.1 hlogging
    · intro s honly
      rw [honly] at hscripting
      exact Scripting.fills_only_iff.1 hscripting

/-- A text that says no more than it has to, with its entries. -/
def shortText : String := "[scripting]\nscript = \"a.lua\"\n"

def shortRoot : Entries :=
  [(⟨"scripting", ⟨28, 19⟩⟩, .table (some ⟨29, 1⟩) .explicit
    [(⟨"script", ⟨17, 11⟩⟩, .string ⟨8, 1⟩ "a.lua")])]

/-- A text that says the same and more. -/
def longText : String :=
  "title = 1\n[logging]\n\n[scripting]\nhot_reload = true\nscript = 'a.lua'\n"

def longRoot : Entries :=
  [(⟨"title", ⟨68, 63⟩⟩, .integer ⟨60, 59⟩ 1),
    (⟨"logging", ⟨57, 50⟩⟩, .table (some ⟨58, 49⟩) .explicit []),
    (⟨"scripting", ⟨46, 37⟩⟩, .table (some ⟨47, 1⟩) .explicit
      [(⟨"hot_reload", ⟨35, 25⟩⟩, .boolean ⟨22, 18⟩ true),
        (⟨"script", ⟨17, 11⟩⟩, .string ⟨8, 1⟩ "a.lua")])]

theorem shortText_source : Source shortText shortRoot where
  parsed := ⟨⟨29, 29⟩, rfl⟩
  tables := by
    refine forall_forms.2 ⟨?_, ?_⟩
    · rintro value ⟨⟩
      exact ⟨_, _, _, rfl⟩
    · rintro value ⟨⟩

theorem longText_source : Source longText longRoot where
  parsed := ⟨⟨68, 59⟩, rfl⟩
  tables := by
    refine forall_forms.2 ⟨?_, ?_⟩
    · rintro value ⟨⟩
      exact ⟨_, _, _, rfl⟩
    · rintro value ⟨⟩
      exact ⟨_, _, _, rfl⟩

/-- A default is written out, an empty table and an unknown key are added, and all of it is put
elsewhere. -/
theorem edits_shortRoot_longRoot : Relation.EqvGen Edit shortRoot longRoot := by
  let reload : Key × Value := (⟨"hot_reload", ⟨35, 25⟩⟩, .boolean ⟨22, 18⟩ true)
  let script : Key × Value := (⟨"script", ⟨17, 11⟩⟩, .string ⟨8, 1⟩ "a.lua")
  let scripting : Key × Value :=
    (⟨"scripting", ⟨28, 19⟩⟩, .table (some ⟨29, 1⟩) .explicit [reload, script])
  let logging : Key × Value := (⟨"logging", ⟨57, 50⟩⟩, .table none .explicit [])
  let title : Key × Value := (⟨"title", ⟨68, 63⟩⟩, .integer ⟨60, 59⟩ 1)
  have hreload : Edit shortRoot [scripting] :=
    .within scripting_mem_forms rfl (.spelledOut rfl rfl rfl)
  have hlogging : Edit [scripting] [logging, scripting] := .emptyLogging none .explicit rfl rfl
  have htitle : Edit [logging, scripting] [title, logging, scripting] := .unknown _ (by decide)
  have hplaces : Edit [title, logging, scripting] longRoot :=
    .respelt (.cons ⟨rfl, rfl⟩ (.cons ⟨rfl, rfl⟩ (.cons ⟨rfl, rfl⟩ .nil)))
  exact .trans _ _ _ (.rel _ _ hreload) (.trans _ _ _ (.rel _ _ hlogging)
    (.trans _ _ _ (.rel _ _ htitle) (.rel _ _ hplaces)))

/-- So both texts are acceptable, and are read as the default settings for the script. -/
theorem settings_of_text_short_long :
    Acceptable (entryDatum? shortRoot) ∧ parse shortText = .ok ⟨.new "a.lua", .default⟩ ∧
      parse longText = .ok ⟨.new "a.lua", .default⟩ := by
  obtain ⟨-, hsuccess, hsame, -⟩ := settings_of_text shortText_source
  have hshort : parse shortText = .ok ⟨.new "a.lua", .default⟩ := rfl
  have hlong := hsame longText longRoot longText_source (.inr edits_shortRoot_longRoot)
  refine ⟨hsuccess.1 ⟨_, hshort⟩, hshort, ?_⟩
  rw [hshort] at hlong
  cases hread : parse longText with
  | ok config =>
    rw [hread] at hlong
    rw [← Option.some.inj hlong]
  | error e =>
    rw [hread] at hlong
    cases hlong

end EventBridge.Config
