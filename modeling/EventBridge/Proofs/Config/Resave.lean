import EventBridge.Proofs.Config.Store

/-! # Saving settings where they were loaded from

  Paths are seen from the directory of the file when settings are loaded, and are saved as they are
  then seen. So a path that is still relative is seen from that directory once more when the file is
  loaded again, and grows with every round.

  * `resolved_iterate_eq_iff`: a path that is seen from a directory any number of times stays what
    it was only if it is absolute, or the directory is none.
  * `Rounds` counts how often a file is loaded and saved again. `load_of_save` is about one round.
  * `resaved_settings` says what is loaded after some rounds, and when that is what it was before,
    text for text. Piece by piece `././a.lua` is the path `./a.lua`, so that behind a directory of
    points alone other texts are the same paths.
-/

namespace EventBridge.Config

variable {base path : String}

/-! ### Paths seen from a directory -/

/-- No path is shorter as seen from a directory. -/
theorem length_le_resolved (base path : String) : path.length ≤ (resolved base path).length := by
  unfold resolved Path.join
  split
  · exact Nat.le_refl _
  · split <;> simp only [String.length_append] <;> omega

/-- A relative path is longer as seen from a directory that has a name. -/
theorem length_lt_resolved (hbase : base ≠ "") (hpath : ¬Path.isAbsolute path) :
    path.length < (resolved base path).length := by
  have hlength : 0 < base.length :=
    Nat.pos_of_ne_zero fun hzero => hbase (String.length_eq_zero_iff.1 hzero)
  unfold resolved Path.join
  rw [if_neg hpath, if_neg hpath]
  split <;> simp only [String.length_append] <;> omega

theorem resolved_of_isAbsolute (base : String) (h : Path.isAbsolute path) :
    resolved base path = path := if_pos h

theorem resolved_empty (path : String) : resolved "" path = path := by
  unfold resolved Path.join
  split <;> simp

/-- A path that starts with an absolute one is absolute. -/
theorem isAbsolute_append (h : Path.isAbsolute base) (text : String) :
    Path.isAbsolute (base ++ text) := by
  have hhead : base.toList.head? = some '/' := eq_of_beq h
  simp [Path.isAbsolute, String.toList_append, List.head?_append, hhead]

/-- Seen from an absolute directory, every path is absolute. -/
theorem isAbsolute_resolved (hbase : Path.isAbsolute base) (path : String) :
    Path.isAbsolute (resolved base path) := by
  unfold resolved
  split
  · assumption
  · next hpath =>
    unfold Path.join
    rw [if_neg hpath]
    split
    · exact isAbsolute_append hbase path
    · exact isAbsolute_append (isAbsolute_append hbase "/") path

theorem length_le_resolved_iterate (base path : String) (n : Nat) :
    path.length ≤ ((resolved base)^[n] path).length := by
  induction n generalizing path with
  | zero => exact Nat.le_refl _
  | succ n ih => exact (length_le_resolved base path).trans (ih (resolved base path))

/-- A path stays what it was only if it does so at once. -/
theorem resolved_iterate_eq_iff (base path : String) (n : Nat) :
    (resolved base)^[n] path = path ↔ n = 0 ∨ base = "" ∨ Path.isAbsolute path := by
  constructor
  · intro h
    cases n with
    | zero => exact .inl rfl
    | succ n =>
      by_contra hgrows
      obtain ⟨-, hbase, hpath⟩ : n + 1 ≠ 0 ∧ base ≠ "" ∧ ¬Path.isAbsolute path := by
        simpa using hgrows
      have hfirst := length_lt_resolved hbase hpath
      have hrest := length_le_resolved_iterate base (resolved base path) n
      rw [Function.iterate_succ_apply] at h
      rw [h] at hrest
      omega
  · rintro (rfl | rfl | habsolute)
    · rfl
    · exact Function.iterate_fixed (resolved_empty path) n
    · exact Function.iterate_fixed (resolved_of_isAbsolute base habsolute) n

/-! ### Settings seen from a directory -/

theorem resolveIn_iterate (base : String) (config : Config) (n : Nat) :
    (fun config : Config => config.resolveIn base)^[n] config =
      ⟨{ config.scripting with script := (resolved base)^[n] config.scripting.script },
        { config.logging with dir := (resolved base)^[n] config.logging.dir }⟩ := by
  induction n generalizing config with
  | zero => rfl
  | succ n ih =>
    rw [Function.iterate_succ_apply, ih]
    rfl

/-- Settings stay what they were if both of their paths do. -/
theorem resolveIn_iterate_eq_iff (base : String) (config : Config) (n : Nat) :
    (fun config : Config => config.resolveIn base)^[n] config = config ↔
      n = 0 ∨ base = "" ∨
        Path.isAbsolute config.scripting.script ∧ Path.isAbsolute config.logging.dir := by
  have hpaths : (fun config : Config => config.resolveIn base)^[n] config = config ↔
      (resolved base)^[n] config.scripting.script = config.scripting.script ∧
        (resolved base)^[n] config.logging.dir = config.logging.dir := by
    rw [resolveIn_iterate]
    obtain ⟨⟨_, _, _, _, _, _⟩, ⟨_, _, _, _⟩⟩ := config
    simp
  rw [hpaths, resolved_iterate_eq_iff, resolved_iterate_eq_iff]
  tauto

theorem resolveIn_empty (config : Config) : config.resolveIn "" = config := by
  rw [resolveIn, resolved_empty, resolved_empty]

/-! ### Loading and saving -/

/-- The directory of a path, without a name where the path has no directory in front. -/
def directory (path : String) : String := (Path.parent? path).getD ""

/-- The directory of an absolute path is absolute, unless it has none. -/
theorem isAbsolute_directory (h : Path.isAbsolute path) :
    directory path = "" ∨ Path.isAbsolute (directory path) := by
  obtain ⟨rest, hroot⟩ : ∃ rest, path.toList = '/' :: rest :=
    List.head?_eq_some_iff.1 (eq_of_beq h)
  have hfront : Path.front path.toList = ['/'] := by
    rw [hroot]
    rfl
  unfold directory Path.parent?
  dsimp only
  rw [hfront]
  split
  · exact .inr (by simp [Path.isAbsolute])
  · exact .inl rfl

variable {tree before after : FileTree} {config : Config} {reports lines : List Log.Line}

/-- Settings are loaded as seen from the directory of the file. -/
theorem eq_resolveIn_of_load (h : load tree path = .ok (config, reports)) :
    (∃ parsed : Config, config = parsed.resolveIn (directory path)) ∧
      reports = [report ("Loaded config from " ++ path)] := by
  unfold load at h
  dsimp only at h
  split at h
  · cases h
  · obtain ⟨bytes, -, h⟩ := ok_of_bind h
    split at h
    · cases h
    · obtain ⟨parsed, -, h⟩ := ok_of_bind h
      cases h
      refine ⟨⟨parsed, ?_⟩, rfl⟩
      unfold directory
      cases Path.parent? path with
      | some base => rfl
      | none => rw [Option.getD_none, resolveIn_empty]

/-- Settings that were saved are loaded as seen from the directory of the file. -/
theorem load_of_save (h : config.save tree path = (.ok lines, after)) :
    load after path =
      .ok (config.resolveIn (directory path), [report ("Loaded config from " ++ path)]) := by
  obtain ⟨text, before, hrender, hwrite⟩ := save_ok h
  obtain ⟨base, hbase⟩ := FileTree.parent?_of_write hwrite
  rw [directory, hbase]
  exact load_of_read (FileTree.read_of_write hwrite) (parse_of_render? hrender) hbase

/-- The file of a path is loaded and saved again some number of times. -/
inductive Rounds (path : String) : Nat → FileTree → FileTree → Prop where
  | none (tree : FileTree) : Rounds path 0 tree tree
  | again {n : Nat} {tree before after : FileTree} {config : Config}
    {reports lines : List Log.Line} : Rounds path n tree before →
    load before path = .ok (config, reports) → config.save before path = (.ok lines, after) →
    Rounds path (n + 1) tree after

/-- With every round the paths are seen from the directory once more. -/
theorem load_of_rounds (hload : load tree path = .ok (config, reports)) {n : Nat}
    (hrounds : Rounds path n tree after) :
    load after path =
      .ok ((fun config : Config => config.resolveIn (directory path))^[n] config, reports) := by
  induction hrounds with
  | none tree => exact hload
  | again _ hloaded hsave ih =>
    have hlast := ih hload
    rw [hlast] at hloaded
    cases hloaded
    rw [load_of_save hsave, Function.iterate_succ_apply', (eq_resolveIn_of_load hload).2]

/-- What is loaded after the file was loaded and saved some number of times: the settings, with each
relative path seen from the directory of the file that many times. These are the settings as they
were at first, with paths of the same texts, only if there was no round, no directory or no relative
path, of which there is none if the path of the file is absolute. -/
theorem resaved_settings (hload : load tree path = .ok (config, reports)) {n : Nat}
    (hrounds : Rounds path n tree after) :
    load after path =
        .ok ((fun config : Config => config.resolveIn (directory path))^[n] config, reports) ∧
      (load after path = .ok (config, reports) ↔ n = 0 ∨ directory path = "" ∨
        Path.isAbsolute config.scripting.script ∧ Path.isAbsolute config.logging.dir) ∧
      (Path.isAbsolute path → load after path = .ok (config, reports)) := by
  have hafter := load_of_rounds hload hrounds
  have hsame : load after path = .ok (config, reports) ↔ n = 0 ∨ directory path = "" ∨
      Path.isAbsolute config.scripting.script ∧ Path.isAbsolute config.logging.dir := by
    rw [hafter, ← resolveIn_iterate_eq_iff]
    simp
  refine ⟨hafter, hsame, fun hpath => hsame.2 ?_⟩
  obtain ⟨⟨parsed, rfl⟩, -⟩ := eq_resolveIn_of_load hload
  rcases isAbsolute_directory hpath with hempty | hdirectory
  · exact .inr (.inl hempty)
  · exact .inr (.inr ⟨isAbsolute_resolved hdirectory _, isAbsolute_resolved hdirectory _⟩)

/-- Settings of a script beside their file. -/
def besideFile : Config := ⟨.new "a.lua", .default⟩

/-- The files once these settings are saved, and once what is loaded then is saved in turn. -/
def savedOnce : FileTree := (besideFile.save .empty "etc/bridge.toml").2

def savedTwice : FileTree := ((besideFile.resolveIn "etc").save savedOnce "etc/bridge.toml").2

/-- Both times they are saved. -/
theorem savedOnce_of_save :
    ∃ lines, besideFile.save .empty "etc/bridge.toml" = (.ok lines, savedOnce) := by
  have hok : (besideFile.save .empty "etc/bridge.toml").1.isOk = true := by decide +kernel
  obtain ⟨lines, hlines⟩ := ok_of_isOk hok
  exact ⟨lines, Prod.ext hlines rfl⟩

theorem savedTwice_of_save :
    ∃ lines, (besideFile.resolveIn "etc").save savedOnce "etc/bridge.toml" =
      (.ok lines, savedTwice) := by
  have hok : ((besideFile.resolveIn "etc").save savedOnce "etc/bridge.toml").1.isOk = true := by
    decide +kernel
  obtain ⟨lines, hlines⟩ := ok_of_isOk hok
  exact ⟨lines, Prod.ext hlines rfl⟩

/-- The script moves down by one directory when its settings are loaded and saved once. -/
theorem resaved_settings_besideFile :
    ∃ reports, load savedOnce "etc/bridge.toml" = .ok (besideFile.resolveIn "etc", reports) ∧
      Rounds "etc/bridge.toml" 1 savedOnce savedTwice ∧
      load savedTwice "etc/bridge.toml" =
        .ok (⟨.new "etc/etc/a.lua", { Logging.default with dir := "etc/etc/logs" }⟩, reports) := by
  obtain ⟨lines, hfirst⟩ := savedOnce_of_save
  obtain ⟨others, hsecond⟩ := savedTwice_of_save
  have hload : load savedOnce "etc/bridge.toml" = .ok (besideFile.resolveIn "etc", _) :=
    load_of_save hfirst
  have hround := Rounds.again (.none savedOnce) hload hsecond
  exact ⟨_, hload, hround, (resaved_settings hload hround).1⟩

/-- So settings that are saved where they were loaded from may be other ones when they are loaded
again. -/
theorem not_settings_resaved :
    ¬∀ (path : String) (tree after : FileTree) (config : Config) (reports lines : List Log.Line),
      load tree path = .ok (config, reports) → config.save tree path = (.ok lines, after) →
      ∃ others, load after path = .ok (config, others) := by
  intro hkeeps
  obtain ⟨lines, hfirst⟩ := savedOnce_of_save
  obtain ⟨others, hsecond⟩ := savedTwice_of_save
  obtain ⟨_, hsame⟩ := hkeeps _ _ _ _ _ _ (load_of_save hfirst) hsecond
  rw [load_of_save hsecond] at hsame
  have hscript : "etc/etc/a.lua" = "etc/a.lua" :=
    congrArg (fun loaded => loaded.1.scripting.script) (Except.ok.inj hsame)
  exact absurd hscript (by decide)

end EventBridge.Config
