import EventBridge.Config.Store
import EventBridge.Proofs.Files.Tree
import EventBridge.Proofs.Toml.Document

/-! # Saving settings and loading them again

  Settings that are saved are the settings that are loaded, whatever their texts are; paths in them
  are then seen from the directory of the file. Settings that cannot be written leave the file as it
  was.

  * `Config.tables` are the settings as tables of a document; `tablesText_of_render?` says that this
    is what is written.
  * `parse_of_render?`: what was written is parsed as the settings it was written from.
  * `save_ok` and `save_outOfRange` take an attempt to save apart.
-/

namespace EventBridge.Config

open Toml (Setting Table SettingsText TablesText PlainNames PlainTables Entries Value Key
  headerText)

/-! ### Settings as tables -/

/-- The settings of a script by name, in order. -/
def Scripting.settings (scripting : Scripting) : List (String × Setting) :=
  [("script", .text scripting.script), ("namespace", .text scripting.namespaceName),
    ("max_payload_bytes", .number scripting.maxPayloadBytes),
    ("max_table_entries", .number scripting.maxTableEntries),
    ("error_policy", .text scripting.errorPolicy.name), ("hot_reload", .switch scripting.hotReload)]

/-- The settings of the log by name, in order. -/
def Logging.settings (logging : Logging) : List (String × Setting) :=
  [("level", .text logging.level), ("file", .switch logging.file), ("dir", .text logging.dir),
    ("max_file_bytes", .number logging.maxFileBytes)]

/-- All settings as the tables of a document. -/
def tables (config : Config) : List Table :=
  [("scripting", config.scripting.settings), ("logging", config.logging.settings)]

theorem Scripting.text_of_render? {scripting : Scripting} {text : String}
    (h : scripting.render? = some text) :
    ∃ cs, SettingsText scripting.settings cs ∧
      text.toList = (headerText "scripting").toList ++ cs := by
  unfold Scripting.render? at h
  obtain ⟨payload, hpayload, h⟩ := Option.bind_eq_some_iff.1 h
  obtain ⟨entries, hentries, h⟩ := Option.bind_eq_some_iff.1 h
  obtain rfl := Option.some.inj h
  refine ⟨_, .cons rfl (.cons rfl (.cons hpayload (.cons hentries
    (.cons rfl (.cons rfl .nil))))), ?_⟩
  simp

theorem Logging.text_of_render? {logging : Logging} {text : String}
    (h : logging.render? = some text) :
    ∃ cs, SettingsText logging.settings cs ∧
      text.toList = (headerText "logging").toList ++ cs := by
  unfold Logging.render? at h
  obtain ⟨size, hsize, h⟩ := Option.bind_eq_some_iff.1 h
  obtain rfl := Option.some.inj h
  refine ⟨_, .cons rfl (.cons rfl (.cons rfl (.cons hsize .nil))), ?_⟩
  simp

/-- What is written are the tables. -/
theorem tablesText_of_render? {config : Config} {text : String}
    (h : config.render? = some text) : TablesText config.tables text.toList := by
  unfold render? at h
  obtain ⟨scripting, hscripting, h⟩ := Option.bind_eq_some_iff.1 h
  obtain ⟨logging, hlogging, h⟩ := Option.bind_eq_some_iff.1 h
  obtain rfl := Option.some.inj h
  obtain ⟨cs, hcs, hscripting⟩ := Scripting.text_of_render? hscripting
  obtain ⟨others, hothers, hlogging⟩ := Logging.text_of_render? hlogging
  have htext : (scripting ++ "\n" ++ logging).toList =
      (headerText "scripting").toList ++ cs ++
        '\n' :: ((headerText "logging").toList ++ others) := by
    simp [hscripting, hlogging]
  rw [htext]
  exact .cons hcs (.one hothers)

theorem plainTables (config : Config) : PlainTables config.tables where
  names := (⟨by decide, by decide⟩ : PlainNames ["scripting", "logging"])
  settings := by
    intro t ht
    rcases List.mem_pair.1 ht with rfl | rfl
    · exact (⟨by decide, by decide⟩ : PlainNames Scripting.names)
    · exact (⟨by decide, by decide⟩ : PlainNames Logging.names)

/-! ### Reading them -/

section Named

variable {β : Type} {Holds : Value → β → Prop} {entries : Toml.Entries}
  {named : List (String × β)}

/-- Entries pass a check that each of them passes under its name. -/
theorem checkAll_named {check : Check} (h : Entries.Name entries Holds named)
    (hcheck : ∀ n ∈ named, ∀ key value, key.name = n.1 → Holds value n.2 →
      check key value = .ok ()) : checkAll check entries = .ok () := by
  induction h with
  | nil => rfl
  | @cons entry n entries named hentry _ ih =>
    obtain ⟨key, value⟩ := entry
    have hfirst := hcheck n List.mem_cons_self key value hentry.1 hentry.2
    simp [checkAll, hfirst, ih fun m hm => hcheck m (List.mem_cons_of_mem _ hm)]

/-- A setting that is there is read. -/
theorem setting_named {α : Type} {b : β} {a : α} {read : Value → Except Toml.Complaint α}
    (h : Entries.Name entries Holds named) (name : String) (hlookup : named.lookup name = some b)
    (hread : ∀ value, Holds value b → read value = .ok a) (default : α) :
    setting entries name read default = .ok a := by
  obtain ⟨value, hget, hholds⟩ := h.get? name hlookup
  simp [setting, hget, hread value hholds]

end Named

theorem text_sets (expected : String) {s : String} {value : Value} (h : value.Sets (.text s)) :
    text expected value = .ok s := by
  obtain ⟨span, rfl⟩ := h
  rfl

theorem switch_sets {b : Bool} {value : Value} (h : value.Sets (.switch b)) :
    switch value = .ok b := by
  obtain ⟨span, rfl⟩ := h
  rfl

theorem count_sets (expected : String) {n : Nat} {value : Value} (h : value.Sets (.number n)) :
    count expected value = .ok n := by
  obtain ⟨span, rfl⟩ := h
  have hnonneg : ¬(n : Int) < 0 := by omega
  simp [Setting.at, count, hnonneg]

theorem policy_sets {errorPolicy : ErrorPolicy} {value : Value}
    (h : value.Sets (.text errorPolicy.name)) : policy value = .ok errorPolicy := by
  obtain ⟨span, rfl⟩ := h
  simp [Setting.at, policy, policyNamed, ErrorPolicy.ofName?_name]

theorem Scripting.check_sets {scripting : Scripting} {n : String × Setting}
    (hn : n ∈ scripting.settings) {key : Key} {value : Value} (hname : key.name = n.1)
    (h : value.Sets n.2) : Scripting.check key value = .ok () := by
  simp only [Scripting.settings, List.mem_cons, List.not_mem_nil, or_false] at hn
  rcases hn with rfl | rfl | rfl | rfl | rfl | rfl
  · simp [Scripting.check, hname, text_sets _ h]
  · simp [Scripting.check, hname, text_sets _ h]
  · simp [Scripting.check, hname, count_sets _ h]
  · simp [Scripting.check, hname, count_sets _ h]
  · simp [Scripting.check, hname, policy_sets h]
  · simp [Scripting.check, hname, switch_sets h]

/-- The settings of a script are read from their table. -/
theorem Scripting.ofValue_lists {scripting : Scripting} {value : Value}
    (h : value.Lists scripting.settings) : Scripting.ofValue value = .ok scripting := by
  obtain ⟨span, entries, rfl, hentries⟩ := h
  have hcheck : checkAll Scripting.check entries = .ok () :=
    checkAll_named hentries fun n hn key value hname hvalue => check_sets hn hname hvalue
  -- Only the path of the script has no default.
  obtain ⟨script, hscript, hvalue⟩ := hentries.get? "script" rfl
  have hnamespace := setting_named hentries "namespace" rfl
    (fun _ => text_sets "a string") "cybermon"
  have hpayload := setting_named hentries "max_payload_bytes" rfl
    (fun _ => count_sets "usize") 16777216
  have htable := setting_named hentries "max_table_entries" rfl
    (fun _ => count_sets "usize") 1024
  have hpolicy := setting_named hentries "error_policy" rfl (fun _ => policy_sets) .log
  have hreload := setting_named hentries "hot_reload" rfl (fun _ => switch_sets) true
  simp [Scripting.ofValue, entriesOf, hcheck, hscript, text_sets _ hvalue, Scripting.new,
    hnamespace, hpayload, htable, hpolicy, hreload]

theorem Logging.check_sets {logging : Logging} {n : String × Setting}
    (hn : n ∈ logging.settings) {key : Key} {value : Value} (hname : key.name = n.1)
    (h : value.Sets n.2) : Logging.check key value = .ok () := by
  simp only [Logging.settings, List.mem_cons, List.not_mem_nil, or_false] at hn
  rcases hn with rfl | rfl | rfl | rfl
  · simp [Logging.check, hname, text_sets _ h]
  · simp [Logging.check, hname, switch_sets h]
  · simp [Logging.check, hname, text_sets _ h]
  · simp [Logging.check, hname, count_sets _ h]

/-- The settings of the log are read from their table. -/
theorem Logging.ofValue_lists {logging : Logging} {value : Value}
    (h : value.Lists logging.settings) : Logging.ofValue value = .ok logging := by
  obtain ⟨span, entries, rfl, hentries⟩ := h
  have hcheck : checkAll Logging.check entries = .ok () :=
    checkAll_named hentries fun n hn key value hname hvalue => check_sets hn hname hvalue
  have hlevel := setting_named hentries "level" rfl
    (fun _ => text_sets "a string") Logging.default.level
  have hfile := setting_named hentries "file" rfl (fun _ => switch_sets)
    Logging.default.file
  have hdir := setting_named hentries "dir" rfl
    (fun _ => text_sets "path string") Logging.default.dir
  have hsize := setting_named hentries "max_file_bytes" rfl
    (fun _ => count_sets "u64") Logging.default.maxFileBytes
  simp [Logging.ofValue, entriesOf, hcheck, hlevel, hfile, hdir, hsize]

/-- What was written is parsed as the settings it was written from. -/
theorem parse_of_render? {config : Config} {text : String} (h : config.render? = some text) :
    parse text = .ok config := by
  obtain ⟨span, entries, hparse, hentries⟩ :=
    Toml.parse_tables (tablesText_of_render? h) (plainTables config)
  have hcheck : checkAll check entries = .ok () := by
    refine checkAll_named hentries fun n hn key value hname hvalue => ?_
    rcases List.mem_pair.1 hn with rfl | rfl
    · simp [check, hname, Scripting.ofValue_lists hvalue]
    · simp [check, hname, Logging.ofValue_lists hvalue]
  obtain ⟨scripting, hscripting, hvalue⟩ := hentries.get? "scripting" rfl
  have hlogging := setting_named hentries "logging" rfl
    (fun _ => Logging.ofValue_lists) Logging.default
  simp [parse, hparse, ofValue, entriesOf, hcheck, hscripting, Scripting.ofValue_lists hvalue,
    hlogging]

/-! ### Files -/

variable {config : Config} {tree after : FileTree} {path text : String}

/-- The bytes of a text are that text. -/
theorem decode?_encode (text : String) :
    Text.Utf8.decode? (Text.Utf8.encode text) = some text := by
  unfold Text.Utf8.decode? Text.Utf8.encode String.fromUTF8?
  exact dif_pos text.isValidUTF8

/-- The tree with the directories on the way to a file. -/
def prepared (tree : FileTree) (path : String) : Except FileError Unit × FileTree :=
  match Path.parent? path with
  | some parent => tree.makeDirectories parent
  | none => (.ok (), tree)

theorem prepared_grows (tree : FileTree) (path : String) :
    tree.Grows (prepared tree path).2 := by
  unfold prepared
  split
  · exact FileTree.makeDirectories_grows tree _
  · exact .refl tree

theorem save_eq (config : Config) (tree : FileTree) (path : String) :
    config.save tree path =
      match prepared tree path with
      | (.error cause, tree) => (.error (.unwritable cause), tree)
      | (.ok (), tree) =>
        match config.render? with
        | none => (.error .outOfRange, tree)
        | some text =>
          match tree.write path (Text.Utf8.encode text) with
          | .error cause => (.error (.unwritable cause), tree)
          | .ok tree => (.ok [report ("Saved config to " ++ path)], tree) := rfl

/-- An attempt to save that succeeds has written the text. -/
theorem save_ok {lines : List Log.Line} (h : config.save tree path = (.ok lines, after)) :
    ∃ text, ∃ before : FileTree, config.render? = some text ∧
      before.write path (Text.Utf8.encode text) = .ok after := by
  rw [save_eq] at h
  generalize prepared tree path = made at h
  obtain ⟨_ | ⟨⟩, before⟩ := made
  · simp at h
  · cases hrender : config.render? with
    | none => simp [hrender] at h
    | some text =>
      refine ⟨text, before, rfl, ?_⟩
      cases hwrite : before.write path (Text.Utf8.encode text) with
      | error cause => simp [hrender, hwrite] at h
      | ok written =>
        obtain ⟨-, rfl⟩ : _ ∧ written = after := by simpa [hrender, hwrite] using h
        rfl

/-- Settings that cannot be written are not saved, and nothing is there afterwards but what was
there before and directories. -/
theorem save_outOfRange (tree : FileTree) (path : String) (h : config.render? = none) :
    (∃ e, (config.save tree path).1 = .error e) ∧ tree.Grows (config.save tree path).2 := by
  have hgrows := prepared_grows tree path
  rw [save_eq]
  generalize prepared tree path = made at hgrows ⊢
  obtain ⟨_ | ⟨⟩, before⟩ := made
  · exact ⟨⟨_, rfl⟩, hgrows⟩
  · simp only [h]
    exact ⟨⟨_, rfl⟩, hgrows⟩

/-- What a file with the text of settings is loaded as. -/
theorem load_of_read {base : String} (hread : after.read path = .ok (Text.Utf8.encode text))
    (hparse : parse text = .ok config) (hbase : Path.parent? path = some base) :
    load after path = .ok (config.resolveIn base, [report ("Loaded config from " ++ path)]) := by
  have hthere := FileTree.contains_of_read hread
  simp [load, hthere, hread, Except.mapError, decode?_encode, hparse, hbase]

/-- A number that 64 bits with a sign do not hold cannot be written. -/
theorem render?_eq_none
    (h : ∃ n ∈ [config.scripting.maxPayloadBytes, config.scripting.maxTableEntries,
      config.logging.maxFileBytes], Int64.maxValue.toInt < n) : config.render? = none := by
  obtain ⟨n, hn, hlarge⟩ := h
  have hnone : Toml.naturalText? n = none := by
    have hlarge : ¬(n : Int) ≤ Int64.maxValue.toInt := by omega
    simp [Toml.naturalText?, hlarge]
  simp only [List.mem_cons, List.not_mem_nil, or_false] at hn
  rcases hn with rfl | rfl | rfl
  · simp [render?, Scripting.render?, hnone]
  · simp [render?, Scripting.render?, hnone]
  · simp [render?, Logging.render?, hnone]

/-- Saving settings loses nothing. If they are saved, the file holds a text of exactly these
settings, and loading it gives them back with relative paths seen from its directory. If a number is
out of range they are not saved, and a file that was there keeps its contents. -/
theorem save_loses_nothing (config : Config) (tree : FileTree) (path : String) :
    (∀ lines after, config.save tree path = (.ok lines, after) →
      ∃ text base, after.read path = .ok (Text.Utf8.encode text) ∧ parse text = .ok config ∧
        Path.parent? path = some base ∧
        load after path = .ok
          (⟨{ config.scripting with
                script :=
                  if Path.isAbsolute config.scripting.script then config.scripting.script
                  else Path.join base config.scripting.script },
              { config.logging with
                dir :=
                  if Path.isAbsolute config.logging.dir then config.logging.dir
                  else Path.join base config.logging.dir }⟩,
            [report ("Loaded config from " ++ path)])) ∧
    ((∃ n ∈ [config.scripting.maxPayloadBytes, config.scripting.maxTableEntries,
        config.logging.maxFileBytes], Int64.maxValue.toInt < n) →
      (∃ e, (config.save tree path).1 = .error e) ∧
        ∀ bytes, tree.read path = .ok bytes → (config.save tree path).2.read path = .ok bytes) := by
  constructor
  · intro lines after hsave
    obtain ⟨text, before, hrender, hwrite⟩ := save_ok hsave
    obtain ⟨base, hbase⟩ := FileTree.parent?_of_write hwrite
    have hread := FileTree.read_of_write hwrite
    have hparse := parse_of_render? hrender
    exact ⟨text, base, hread, hparse, hbase, load_of_read hread hparse hbase⟩
  · intro hlarge
    obtain ⟨herror, hgrows⟩ := save_outOfRange tree path (render?_eq_none hlarge)
    exact ⟨herror, fun bytes hbytes => FileTree.read_grows hgrows hbytes⟩

/-- Settings of a script whose name has quotes of both kinds, a backslash and a line break. -/
def withQuotes (maxFileBytes : Nat) : Config :=
  ⟨.new "a'\"\\\n\"\"\"'''.lua", { Logging.default with maxFileBytes := maxFileBytes }⟩

/-- They are saved below a directory that is not there yet, unless a number is too large. -/
theorem save_loses_nothing_of_quotes :
    (∃ lines after text, (withQuotes 7).save FileTree.empty "etc/bridge.toml" = (.ok lines, after) ∧
      after.read "etc/bridge.toml" = .ok (Text.Utf8.encode text) ∧
      parse text = .ok (withQuotes 7)) ∧
    ∃ e, ((withQuotes (2 ^ 63)).save FileTree.empty "etc/bridge.toml").1 = .error e := by
  constructor
  · have hsaved : ((withQuotes 7).save FileTree.empty "etc/bridge.toml").1.isOk = true := by
      decide +kernel
    cases hsave : (withQuotes 7).save FileTree.empty "etc/bridge.toml" with
    | mk result after =>
      cases result with
      | error e => simp [hsave, Except.isOk, Except.toBool] at hsaved
      | ok lines =>
        obtain ⟨text, _, hread, hparse, -⟩ :=
          (save_loses_nothing (withQuotes 7) FileTree.empty "etc/bridge.toml").1 lines after hsave
        exact ⟨lines, after, text, rfl, hread, hparse⟩
  · refine ((save_loses_nothing (withQuotes (2 ^ 63)) FileTree.empty "etc/bridge.toml").2 ?_).1
    exact ⟨2 ^ 63, by simp [withQuotes], by decide⟩

end EventBridge.Config
