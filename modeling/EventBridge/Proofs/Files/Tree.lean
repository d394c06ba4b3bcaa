import EventBridge.Files.Tree
import EventBridge.Proofs.Result
import Mathlib.Data.List.TakeWhile

/-! # Writing files and finding them again

  What a file tree has after its operations, as far as reading a file goes.

  * `read_of_write`: a file that was written is read back under the same path.
  * `makeDirectories_grows` and `read_grows`: making directories leaves every file as it was. A
    directory is only made where nothing is, so the tree grows (`Grows`), and a path to something
    that is there leads to it still (`walk_grows`).
  * `parent?_of_write`: a path that can be written has a directory in front.

  Each of them rests on a lemma about `walk`, by induction on the names in a path; `locate_ok` and
  `walk_cons` say what a path goes through.
-/

namespace EventBridge.FileTree

/-- Where a path leads, whether or not something is there. -/
def Target.place : Target → List String
  | .present place | .absent place => place

variable {tree later : FileTree} {place start : List String} {path : String} {bytes : List UInt8}

/-! ### Following a path -/

/-- The pieces of a path that are not empty. -/
def names (path : String) : List String :=
  (Path.pieces path.toList).filterMap fun piece =>
    if piece.isEmpty then none else some (String.ofList piece)

/-- Where a path begins. -/
def origin (tree : FileTree) (path : String) : List String :=
  if Path.isAbsolute path then [] else tree.here

/-- A path that leads somewhere is followed name by name, and so it is in any tree. -/
theorem locate_ok {target : Target} (h : tree.locate path = .ok target) :
    tree.walk (names path) (tree.origin path) = .ok target ∧
      ∀ other : FileTree, other.locate path = other.walk (names path) (other.origin path) := by
  unfold locate at h ⊢
  dsimp only at h ⊢
  split at h
  · cases h
  split at h
  · cases h
  · next hempty hnull =>
    refine ⟨h, fun other => ?_⟩
    rw [if_neg hempty, if_neg hnull]
    rfl

/-- How a path that leads somewhere goes on in a directory: the next piece stays there, leaves it,
enters what it holds, or is the last one and missing. -/
inductive Passes (tree : FileTree) (start : List String) (target : Target) :
    String → List String → Prop where
  | stays {pieces : List String} : tree.walk pieces start = .ok target →
    Passes tree start target "." pieces
  | leaves {pieces : List String} : tree.walk pieces start.dropLast = .ok target →
    Passes tree start target ".." pieces
  | enters {piece : String} {pieces : List String} {node : Node} : piece ≠ "." → piece ≠ ".." →
    piece.utf8ByteSize ≤ nameLimit → tree.node? (start ++ [piece]) = some node →
    tree.walk pieces (start ++ [piece]) = .ok target → Passes tree start target piece pieces
  | misses {piece : String} : piece ≠ "." → piece ≠ ".." → piece.utf8ByteSize ≤ nameLimit →
    tree.node? (start ++ [piece]) = none → target = .absent (start ++ [piece]) →
    Passes tree start target piece []

/-- Whatever a path goes through is a directory. -/
theorem walk_cons {piece : String} {pieces : List String} {target : Target}
    (h : tree.walk (piece :: pieces) start = .ok target) :
    tree.node? start = some .directory ∧ Passes tree start target piece pieces := by
  unfold walk at h
  split at h
  case h_2 => cases h
  next hdirectory =>
  refine ⟨hdirectory, ?_⟩
  by_cases hdot : piece = "."
  · subst hdot
    exact .stays (by simpa using h)
  by_cases hup : piece = ".."
  · subst hup
    exact .leaves (by simpa using h)
  by_cases hlong : nameLimit < piece.utf8ByteSize
  · simp [hdot, hup, hlong] at h
  have hshort : piece.utf8ByteSize ≤ nameLimit := by omega
  simp only [hdot, hup, hlong, if_false] at h
  cases hnode : tree.node? (start ++ [piece]) with
  | some node => exact .enters hdot hup hshort hnode (by simpa [hnode] using h)
  | none =>
    cases pieces with
    | nil => exact .misses hdot hup hshort hnode (by simpa [hnode] using h.symm)
    | cons => simp [hnode] at h

theorem walk_dot {pieces : List String} (hstart : tree.node? start = some .directory) :
    tree.walk ("." :: pieces) start = tree.walk pieces start := by
  simp [walk, hstart]

theorem walk_up {pieces : List String} (hstart : tree.node? start = some .directory) :
    tree.walk (".." :: pieces) start = tree.walk pieces start.dropLast := by
  simp [walk, hstart]

theorem walk_enter {piece : String} {pieces : List String} {node : Node}
    (hstart : tree.node? start = some .directory) (hdot : piece ≠ ".") (hup : piece ≠ "..")
    (hshort : piece.utf8ByteSize ≤ nameLimit) (hnode : tree.node? (start ++ [piece]) = some node) :
    tree.walk (piece :: pieces) start = tree.walk pieces (start ++ [piece]) := by
  have hlong : ¬nameLimit < piece.utf8ByteSize := by omega
  simp [walk, hstart, hdot, hup, hlong, hnode]

/-- What a path leads to and is missing is not there. -/
theorem node?_of_absent {pieces : List String}
    (h : tree.walk pieces start = .ok (.absent place)) : tree.node? place = none := by
  induction pieces generalizing start with
  | nil => cases h
  | cons piece pieces ih =>
    obtain ⟨-, hpasses⟩ := walk_cons h
    cases hpasses with
    | stays hrest => exact ih hrest
    | leaves hrest => exact ih hrest
    | enters _ _ _ _ hrest => exact ih hrest
    | misses _ _ _ hnone heq =>
      obtain rfl := Target.absent.inj heq
      exact hnone

/-! ### Files that were written -/

theorem node?_written (hplace : tree.node? place ≠ some .directory) (bytes : List UInt8)
    (other : List String) : (tree.set place (.file bytes)).node? other =
      if other == place then some (.file bytes) else tree.node? other := by
  refine node?_set tree place other _ ?_
  rintro rfl
  exact hplace rfl

/-- A path that leads to a place without a directory leads to the file that is put there. -/
theorem walk_written {pieces : List String} {target : Target}
    (hplace : tree.node? target.place ≠ some .directory)
    (h : tree.walk pieces start = .ok target) (bytes : List UInt8) :
    (tree.set target.place (.file bytes)).walk pieces start = .ok (.present target.place) := by
  have hwritten := node?_written hplace bytes
  induction pieces generalizing start with
  | nil =>
    obtain rfl := Except.ok.inj h
    rfl
  | cons piece pieces ih =>
    obtain ⟨hdirectory, hpasses⟩ := walk_cons h
    -- The way goes through directories only, so it does not pass through the place.
    have hstart : (tree.set target.place (.file bytes)).node? start = some .directory := by
      have hne : start ≠ target.place := by
        intro heq
        exact hplace (heq ▸ hdirectory)
      rw [hwritten, if_neg (by simpa using hne), hdirectory]
    cases hpasses with
    | stays hrest => rw [walk_dot hstart, ih hrest]
    | leaves hrest => rw [walk_up hstart, ih hrest]
    | @enters _ _ node hdot hup hshort hnode hrest =>
      -- What is entered is there still, unless it is the place itself.
      have hnode' : ∃ node, (tree.set target.place (.file bytes)).node? (start ++ [piece]) =
          some node := by
        rw [hwritten]
        split
        · exact ⟨_, rfl⟩
        · exact ⟨node, hnode⟩
      obtain ⟨node', hnode'⟩ := hnode'
      rw [walk_enter hstart hdot hup hshort hnode', ih hrest]
    | misses hdot hup hshort _ heq =>
      subst heq
      have hnode := hwritten (start ++ [piece])
      rw [if_pos (by simp [Target.place])] at hnode
      exact walk_enter hstart hdot hup hshort hnode

theorem locate_written {target : Target} (hplace : tree.node? target.place ≠ some .directory)
    (h : tree.locate path = .ok target) (bytes : List UInt8) :
    (tree.set target.place (.file bytes)).locate path = .ok (.present target.place) := by
  obtain ⟨hwalk, hlocate⟩ := locate_ok h
  rw [hlocate]
  exact walk_written hplace hwalk bytes

/-- What can be written is no directory, and no path of one. -/
theorem write_ok (h : tree.write path bytes = .ok later) :
    ∃ target, tree.locate path = .ok target ∧ tree.node? target.place ≠ some .directory ∧
      endsInSlash path = false ∧ later = tree.set target.place (.file bytes) := by
  unfold write at h
  cases hlocate : tree.locate path with
  | error e => simp [hlocate] at h
  | ok target =>
    refine ⟨target, rfl, ?_⟩
    cases target with
    | absent place =>
      have hnone := node?_of_absent (locate_ok hlocate).1
      by_cases hslash : endsInSlash path
      · simp [hlocate, hslash] at h
      · have hlater : tree.set place (.file bytes) = later := by
          simpa [hlocate, hslash] using h
        exact ⟨by simp [Target.place, hnone], by simpa using hslash, hlater.symm⟩
    | present place =>
      cases hnode : tree.node? place with
      | none => simp [hlocate, hnode] at h
      | some node =>
        cases node with
        | directory => simp [hlocate, hnode] at h
        | file old =>
          by_cases hslash : endsInSlash path
          · simp [hlocate, hnode, hslash] at h
          · have hlater : tree.set place (.file bytes) = later := by
              simpa [hlocate, hnode, hslash] using h
            exact ⟨by simp [Target.place, hnode], by simpa using hslash, hlater.symm⟩

/-- A file that was written is read back. -/
theorem read_of_write (h : tree.write path bytes = .ok later) : later.read path = .ok bytes := by
  obtain ⟨target, hlocate, hplace, hslash, rfl⟩ := write_ok h
  have hnode := node?_written hplace bytes target.place
  rw [if_pos (by simp)] at hnode
  simp [read, look, locate_written hplace hlocate bytes, hnode, hslash]

/-- What is read is there. -/
theorem contains_of_read (h : tree.read path = .ok bytes) : tree.contains path = true := by
  unfold contains
  cases hlook : tree.look path with
  | ok node => rfl
  | error e => simp [read, hlook] at h

/-! ### Directories that were made -/

/-- Whatever is in the first tree is in the second, at the same place. -/
structure Grows (tree later : FileTree) : Prop where
  here : later.here = tree.here
  keeps : ∀ {place node}, tree.node? place = some node → later.node? place = some node

theorem Grows.refl (tree : FileTree) : Grows tree tree := ⟨rfl, fun h => h⟩

theorem Grows.trans {last : FileTree} (h : Grows tree later) (hlast : Grows later last) :
    Grows tree last :=
  ⟨hlast.here.trans h.here, fun hnode => hlast.keeps (h.keeps hnode)⟩

/-- Something put where nothing was. -/
theorem grows_set (h : tree.node? place = none) (node : Node) :
    Grows tree (tree.set place node) := by
  have hne : place ≠ [] := by
    rintro rfl
    cases h
  refine ⟨rfl, ?_⟩
  intro other found hfound
  have hother : other ≠ place := by
    rintro rfl
    rw [h] at hfound
    cases hfound
  rw [node?_set tree place other node hne, if_neg (by simpa using hother), hfound]

/-- A path to something that is there leads to it in a tree that has grown. -/
theorem walk_grows {pieces : List String} (hgrows : Grows tree later)
    (h : tree.walk pieces start = .ok (.present place)) :
    later.walk pieces start = .ok (.present place) := by
  induction pieces generalizing start with
  | nil => exact h
  | cons piece pieces ih =>
    obtain ⟨hdirectory, hpasses⟩ := walk_cons h
    have hstart := hgrows.keeps hdirectory
    cases hpasses with
    | stays hrest => rw [walk_dot hstart, ih hrest]
    | leaves hrest => rw [walk_up hstart, ih hrest]
    | enters hdot hup hshort hnode hrest =>
      rw [walk_enter hstart hdot hup hshort (hgrows.keeps hnode), ih hrest]
    -- The path leads to something that is there.
    | misses _ _ _ _ heq => cases heq

theorem locate_grows (hgrows : Grows tree later) (h : tree.locate path = .ok (.present place)) :
    later.locate path = .ok (.present place) := by
  obtain ⟨hwalk, hlocate⟩ := locate_ok h
  rw [hlocate, origin, hgrows.here]
  exact walk_grows hgrows hwalk

/-- A file that is there is a file at the end of its path. -/
theorem read_ok (h : tree.read path = .ok bytes) :
    ∃ place, tree.locate path = .ok (.present place) ∧ tree.node? place = some (.file bytes) ∧
      endsInSlash path = false := by
  unfold read look at h
  cases hlocate : tree.locate path with
  | error e => simp [hlocate] at h
  | ok target =>
    cases target with
    | absent place => simp [hlocate] at h
    | present place =>
      refine ⟨place, rfl, ?_⟩
      cases hnode : tree.node? place with
      | none => simp [hlocate, hnode] at h
      | some node =>
        cases node with
        | directory => simp [hlocate, hnode] at h
        | file found =>
          by_cases hslash : endsInSlash path
          · simp [hlocate, hnode, hslash] at h
          · obtain rfl : found = bytes := by simpa [hlocate, hnode, hslash] using h
            exact ⟨rfl, by simpa using hslash⟩

/-- A file reads the same in a tree that has grown. -/
theorem read_grows (hgrows : Grows tree later) (h : tree.read path = .ok bytes) :
    later.read path = .ok bytes := by
  obtain ⟨place, hlocate, hnode, hslash⟩ := read_ok h
  simp [read, look, locate_grows hgrows hlocate, hgrows.keeps hnode, hslash]

/-- A directory is made where nothing was. -/
theorem makeDirectory_grows (h : tree.makeDirectory path = .ok later) : Grows tree later := by
  unfold makeDirectory at h
  cases hlocate : tree.locate path with
  | error e => simp [hlocate] at h
  | ok target =>
    cases target with
    | present place => simp [hlocate] at h
    | absent place =>
      have hlater : tree.set place .directory = later := by simpa [hlocate] using h
      exact hlater ▸ grows_set (node?_of_absent (locate_ok hlocate).1) .directory

theorem ensureDirectory_grows (tree : FileTree) (path : String) :
    Grows tree (tree.ensureDirectory path).2 := by
  unfold ensureDirectory
  split
  · next hmade => exact makeDirectory_grows hmade
  · exact .refl tree

theorem makeWay_grows (fuel : Nat) (tree : FileTree) (path : String) :
    Grows tree (makeWay fuel tree path).2 := by
  induction fuel generalizing path with
  | zero => exact .refl tree
  | succ fuel ih =>
    unfold makeWay
    split
    · exact .refl tree
    split
    · -- The directory in front is missing, too.
      split
      · exact .refl tree
      · next parent _ =>
        have hbetween := ih parent
        split
        · next between hway =>
          rw [hway] at hbetween
          exact hbetween.trans (ensureDirectory_grows between path)
        · next hway =>
          rw [hway] at hbetween
          exact hbetween
    · exact ensureDirectory_grows tree path

/-- Making directories leaves everything that was there, also where it fails. -/
theorem makeDirectories_grows (tree : FileTree) (path : String) :
    Grows tree (tree.makeDirectories path).2 := makeWay_grows _ tree path

/-! ### Paths with nothing in front -/

theorem isVoid_of_trimEnd {pieces : List (List Char)} (h : Path.trimEnd pieces = []) :
    ∀ piece ∈ pieces, Path.isVoid piece = true := by
  simp only [Path.trimEnd, List.reverse_eq_nil_iff, List.dropWhile_eq_nil_iff,
    List.mem_reverse] at h
  exact h

/-- The first piece is empty only at the end of a path, or before a slash. -/
theorem eq_of_pieces_nil {cs : List Char} {others : List (List Char)}
    (h : Path.pieces cs = [] :: others) : cs = [] ∨ ∃ more, cs = '/' :: more := by
  cases cs with
  | nil => exact .inl rfl
  | cons c more =>
    by_cases hslash : c = '/'
    · exact .inr ⟨more, by rw [hslash]⟩
    · obtain ⟨piece, others', hmore⟩ := List.exists_cons_of_ne_nil (Path.pieces_ne_nil more)
      simp [Path.pieces, hslash, hmore] at h

/-- A path without a directory in front is empty or names the root. -/
theorem root_of_parent?_eq_none (h : Path.parent? path = none) :
    path.toList = [] ∨
      ∃ rest, path.toList = '/' :: rest ∧ ∀ piece ∈ Path.pieces rest, Path.isVoid piece = true := by
  simp only [Path.parent?] at h
  have hpieces : Path.trimEnd
      (Path.pieces (path.toList.drop (Path.front path.toList).length)) = [] := by
    split at h
    · cases h
    · next hnil => simpa using hnil
  have hvoid := isVoid_of_trimEnd hpieces
  have hfront : Path.front path.toList ≠ ['.'] := by
    intro hdot
    rw [hdot] at h
    split at h
    · cases h
    · simp at h
  cases hchars : path.toList with
  | nil => exact .inl rfl
  | cons c rest =>
    rw [hchars] at hvoid hfront
    by_cases hslash : c = '/'
    · subst hslash
      exact .inr ⟨rest, rfl, hvoid⟩
    · -- Without a slash the first piece is no void one, unless the path starts with a point.
      exfalso
      have hnone : Path.front (c :: rest) = [] := by
        unfold Path.front at hfront ⊢
        split at hfront <;> simp_all
      obtain ⟨piece, others, hrest⟩ := List.exists_cons_of_ne_nil (Path.pieces_ne_nil rest)
      have hfirst : Path.pieces (c :: rest) = (c :: piece) :: others := by
        simp [Path.pieces, hslash, hrest]
      rw [hnone] at hvoid
      have hpoint := hvoid (c :: piece) (by simp [hfirst])
      obtain ⟨rfl, rfl⟩ : c = '.' ∧ piece = [] := by simpa [Path.isVoid] using hpoint
      rcases eq_of_pieces_nil hrest with rfl | ⟨more, rfl⟩
      · exact hfront rfl
      · exact hfront rfl

/-- A path of void pieces behind a slash has points for names. -/
theorem eq_dot_of_mem_names {rest : List Char} (hroot : path.toList = '/' :: rest)
    (hvoid : ∀ piece ∈ Path.pieces rest, Path.isVoid piece = true) :
    ∀ name ∈ names path, name = "." := by
  intro name hname
  have hpieces : Path.pieces ('/' :: rest) = [] :: Path.pieces rest := by
    simp [Path.pieces]
  rw [names, hroot, hpieces] at hname
  obtain ⟨piece, hpiece, heq⟩ := List.mem_filterMap.1 hname
  have hpiece : Path.isVoid piece = true := by
    rcases List.mem_cons.1 hpiece with rfl | hpiece
    · rfl
    · exact hvoid piece hpiece
  have hcases : piece = [] ∨ piece = ['.'] := by simpa [Path.isVoid] using hpiece
  rcases hcases with rfl | rfl
  · cases heq
  · exact (Option.some.inj heq).symm

/-- Points lead nowhere else. -/
theorem walk_dots {names : List String} (h : ∀ name ∈ names, name = ".") :
    tree.walk names [] = .ok (.present []) := by
  induction names with
  | nil => rfl
  | cons name names ih =>
    obtain rfl := h name List.mem_cons_self
    rw [walk_dot rfl, ih fun n hn => h n (List.mem_cons_of_mem _ hn)]

/-- A path that can be written has a directory in front. -/
theorem parent?_of_write (h : tree.write path bytes = .ok later) :
    ∃ base, Path.parent? path = some base := by
  cases hparent : Path.parent? path with
  | some base => exact ⟨base, rfl⟩
  | none =>
    obtain ⟨target, hlocate, hplace, -⟩ := write_ok h
    rcases root_of_parent?_eq_none hparent with hempty | ⟨rest, hroot, hvoid⟩
    · simp [locate, hempty] at hlocate
    · -- It leads to the root, which is a directory.
      have hwalk := (locate_ok hlocate).1
      have horigin : tree.origin path = [] := by simp [origin, Path.isAbsolute, hroot]
      rw [horigin, walk_dots (eq_dot_of_mem_names hroot hvoid)] at hwalk
      obtain rfl := Except.ok.inj hwalk
      exact absurd rfl hplace

end EventBridge.FileTree
