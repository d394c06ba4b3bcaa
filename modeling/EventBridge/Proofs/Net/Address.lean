import EventBridge.Net.Address.Reader
import EventBridge.Proofs.Text.Digits

/-! # Reading back network addresses

  The text of an address is read as that address, and the text of an endpoint as that endpoint.

  * The leaves come first: an octet, a group, a number, the dotted form.
  * A reader of groups tries the dotted form at each of them. `Ip4.read_group` says that a group
    that no point follows is none, and `groupsUpTo_groupChars` that groups are read as they stand.
  * An IPv6 address has one of three texts, and `Ip6.read_chars` reads them back one by one. What
    the two colons have left out is zero by `longestZeroRun_spec`.
-/

namespace EventBridge.Net

open Text (digit10? digit16? spanDigits decimal hexadecimal Stops stops_nil stops_cons
  spanDigits_decimal spanDigits_hexadecimal spanDigits_of_stops)

variable {rest : List Char}

/-! ### Numbers -/

theorem octet_decimal (x : UInt8) (h : Stops digit10? rest) :
    octet (decimal x.toNat ++ rest) = some (x, rest) := by
  obtain ⟨ds, hspan, hnumeral⟩ := spanDigits_decimal x.toNat h
  have hx : x.toNat < 256 := x.toNat_lt
  have hlength : ds.length ≤ 3 := hnumeral.length_le 3 (by decide) (by omega)
  unfold octet
  simp only [hspan, hnumeral.value]
  rw [if_neg]
  · simp
  · rintro (hnil | hlong | ⟨hhead, hlong⟩ | hlarge)
    · exact hnumeral.ne_nil hnil
    · omega
    · -- A zero in front is the zero alone.
      have hzero : ds = [0] := hnumeral.plain hhead
      simp [hzero] at hlong
    · omega

theorem group_hexadecimal (g : UInt16) (h : Stops digit16? rest) :
    group (hexadecimal g.toNat ++ rest) = some (g, rest) := by
  obtain ⟨ds, hspan, hnumeral⟩ := spanDigits_hexadecimal g.toNat h
  have hg : g.toNat < 65536 := g.toNat_lt
  have hlength : ds.length ≤ 4 := hnumeral.length_le 4 (by decide) (by omega)
  unfold group
  simp only [hspan, hnumeral.value]
  rw [if_neg]
  · simp
  · rintro (hnil | hlong)
    · exact hnumeral.ne_nil hnil
    · omega

theorem number_decimal {bound n : Nat} (hn : n < bound) (h : Stops digit10? rest) :
    number bound (decimal n ++ rest) = some (n, rest) := by
  obtain ⟨ds, hspan, hnumeral⟩ := spanDigits_decimal n h
  unfold number
  simp only [hspan, hnumeral.value]
  rw [if_neg]
  rintro (hnil | hlarge)
  · exact hnumeral.ne_nil hnil
  · omega

@[simp] theorem given_cons_self (c : Char) (cs : List Char) :
    given c (c :: cs) = some ((), cs) := by
  simp [given]

/-! ### The dotted form -/

/-- The dotted form is read back where no digit follows. -/
theorem Ip4.read_chars (x : Ip4) (h : Stops digit10? rest) :
    Ip4.read (x.chars ++ rest) = some (x, rest) := by
  have hpoint : ∀ cs, Stops digit10? ('.' :: cs) := fun cs => by simp [digit10?]
  obtain ⟨a, b, c, d⟩ := x
  simp only [chars, read, List.append_assoc, List.cons_append]
  rw [octet_decimal a (hpoint _)]
  simp only [Option.bind_eq_bind, Option.bind_some, given_cons_self]
  rw [octet_decimal b (hpoint _)]
  simp only [Option.bind_some, given_cons_self]
  rw [octet_decimal c (hpoint _)]
  simp only [Option.bind_some, given_cons_self]
  rw [octet_decimal d h]
  rfl

/-- Without a digit in front there is no dotted form. -/
theorem Ip4.read_of_stops {cs : List Char} (h : Stops digit10? cs) : Ip4.read cs = none := by
  simp [read, octet, spanDigits_of_stops h]

/-- Nor is there one without a point behind the first digits. -/
theorem Ip4.read_of_no_point {cs : List Char}
    (h : (spanDigits digit10? cs).2.head? ≠ some '.') : Ip4.read cs = none := by
  have hgiven : given '.' (spanDigits digit10? cs).2 = none := by
    generalize (spanDigits digit10? cs).2 = rest at h ⊢
    cases rest with
    | nil => rfl
    | cons c rest =>
      have hc : c ≠ '.' := by simpa using h
      simp [given, hc]
  unfold read octet
  dsimp only
  split
  · rfl
  · simp [hgiven]

/-! ### Groups -/

/-- The characters do not go on with a group, nor make it the beginning of a dotted form. -/
structure EndsGroup (cs : List Char) : Prop where
  stops : Stops digit16? cs
  noPoint : cs.head? ≠ some '.'

/-- What is no digit of base 16 is none of base 10. -/
theorem digit10?_of_digit16? {c : Char} (h : digit16? c = none) : digit10? c = none := by
  unfold digit16? at h
  unfold digit10?
  split at h
  · cases h
  · next hc => exact if_neg hc

theorem stops_ten_of_sixteen {cs : List Char} (h : Stops digit16? cs) : Stops digit10? cs :=
  fun c hc => digit10?_of_digit16? (h c hc)

/-- Behind the digits of base 10 in characters without a point comes no point either. -/
theorem head_spanDigits_append {cs : List Char} (hcs : '.' ∉ cs) (h : EndsGroup rest) :
    (spanDigits digit10? (cs ++ rest)).2.head? ≠ some '.' := by
  induction cs with
  | nil =>
    rw [List.nil_append, spanDigits_of_stops (stops_ten_of_sixteen h.stops)]
    exact h.noPoint
  | cons c cs ih =>
    obtain ⟨hc, hcs⟩ : '.' ≠ c ∧ '.' ∉ cs := by simpa using hcs
    rw [List.cons_append]
    unfold spanDigits
    split
    · exact ih hcs
    · simpa using hc.symm

theorem point_notMem_hexadecimal (n : Nat) : '.' ∉ hexadecimal n := by
  intro h
  obtain ⟨ds, htext, -⟩ := Text.numeral_toDigits (by decide) Text.digitsOf_sixteen n
  have hmem : digit16? '.' ∈ (hexadecimal n).map digit16? := List.mem_map_of_mem h
  rw [show (hexadecimal n).map digit16? = ds.map some from htext] at hmem
  obtain ⟨d, -, hd⟩ := List.mem_map.1 hmem
  have hnone : digit16? '.' = none := by decide
  rw [hnone] at hd
  cases hd

/-- A group is not the beginning of a dotted form. -/
theorem Ip4.read_group (n : Nat) (h : EndsGroup rest) :
    Ip4.read (hexadecimal n ++ rest) = none :=
  Ip4.read_of_no_point (head_spanDigits_append (point_notMem_hexadecimal n) h)

/-- Without a digit in front there is no group. -/
theorem group_of_stops {cs : List Char} (h : Stops digit16? cs) : group cs = none := by
  simp [group, spanDigits_of_stops h]

/-- Groups with a colon in front of each. -/
def colonChars (groups : List UInt16) : List Char :=
  groups.flatMap fun g => ':' :: hexadecimal g.toNat

@[simp] theorem colonChars_nil : colonChars [] = [] := rfl

@[simp] theorem colonChars_cons (g : UInt16) (groups : List UInt16) :
    colonChars (g :: groups) = ':' :: hexadecimal g.toNat ++ colonChars groups := by
  simp [colonChars]

theorem groupChars_cons (g : UInt16) (groups : List UInt16) :
    groupChars (g :: groups) = hexadecimal g.toNat ++ colonChars groups := by
  induction groups generalizing g with
  | nil => simp [groupChars]
  | cons next groups ih =>
    rw [groupChars, ih next, colonChars_cons, List.cons_append]
    exact List.cons_ne_nil _ _

theorem endsGroup_colon (cs : List Char) : EndsGroup (':' :: cs) where
  stops := by
    rw [stops_cons]
    decide
  noPoint := by simp

theorem endsGroup_colonChars (groups : List UInt16) (h : EndsGroup rest) :
    EndsGroup (colonChars groups ++ rest) := by
  cases groups with
  | nil => exact h
  | cons g groups => exact endsGroup_colon _

/-- No further group follows behind a colon. -/
def EndsGroups (cs : List Char) : Prop :=
  ∀ after, cs = ':' :: after → Stops digit16? after

/-- So there is nothing to read behind a colon, be it a group or a dotted form. -/
theorem EndsGroups.separated_none (h : EndsGroups rest) :
    separated false Ip4.read rest = none ∧ separated false group rest = none := by
  cases rest with
  | nil => exact ⟨rfl, rfl⟩
  | cons c after =>
    by_cases hc : c = ':'
    · subst hc
      have hstops := h after rfl
      simp [separated, Ip4.read_of_stops (stops_ten_of_sixteen hstops), group_of_stops hstops]
    · simp [separated, given, hc]

/-- Groups behind colons are read as they stand, as far as there is room. -/
theorem groupsUpTo_colonChars {room : Nat} {groups : List UInt16} (hroom : groups.length ≤ room)
    (h : EndsGroup rest) (hends : EndsGroups rest) :
    groupsUpTo room false (colonChars groups ++ rest) = (groups, false, rest) := by
  induction groups generalizing room with
  | nil =>
    -- There may be room for more, but nothing to read.
    cases room with
    | zero => rfl
    | succ room => simp [groupsUpTo, hends.separated_none]
  | cons g groups ih =>
    obtain ⟨room, rfl⟩ : ∃ r, room = r + 1 := ⟨room - 1, by simp at hroom; omega⟩
    have hmore := endsGroup_colonChars groups h
    rw [colonChars_cons, List.cons_append, List.cons_append, List.append_assoc]
    simp [groupsUpTo, separated, Ip4.read_group g.toNat hmore, group_hexadecimal g hmore.stops,
      ih (by simpa using hroom)]

/-- Groups with colons between them are read as they stand. -/
theorem groupsUpTo_groupChars {room : Nat} {groups : List UInt16} (hroom : groups.length ≤ room)
    (h : EndsGroup rest) (hends : EndsGroups rest) :
    groupsUpTo room true (groupChars groups ++ rest) = (groups, false, rest) := by
  cases groups with
  | nil =>
    have hfour := Ip4.read_of_stops (stops_ten_of_sixteen h.stops)
    cases room with
    | zero => rfl
    | succ room => simp [groupsUpTo, groupChars, separated, hfour, group_of_stops h.stops]
  | cons g groups =>
    obtain ⟨room, rfl⟩ : ∃ r, room = r + 1 := ⟨room - 1, by simp at hroom; omega⟩
    have hmore := endsGroup_colonChars groups h
    rw [groupChars_cons, List.append_assoc]
    simp [groupsUpTo, separated, Ip4.read_group g.toNat hmore, group_hexadecimal g hmore.stops,
      groupsUpTo_colonChars (by simpa using hroom) h hends]

/-! ### IPv6 addresses -/

/-- What may stand behind an IPv6 address. -/
structure EndsAddress (cs : List Char) : Prop extends EndsGroup cs where
  noColon : cs.head? ≠ some ':'

theorem EndsAddress.endsGroups (h : EndsAddress rest) : EndsGroups rest := by
  rintro after rfl
  exact absurd rfl h.noColon

/-- Two colons end the groups in front of them. -/
theorem endsGroups_two_colons (cs : List Char) : EndsGroups (':' :: ':' :: cs) := by
  intro after hafter
  obtain rfl : ':' :: cs = after := by simpa using hafter
  exact (endsGroup_colon cs).stops

/-- The groups of an address are those in front, zeros, and those behind. -/
theorem Ip6.ofParts_eq {x : Ip6} {head tail : List UInt16}
    (h : x.groups.toList = head ++ List.replicate (8 - head.length - tail.length) 0 ++ tail) :
    Ip6.ofParts head tail = x := by
  obtain ⟨groups⟩ := x
  simp only at h
  unfold Ip6.ofParts
  rw [← h, Ip6.mk.injEq]
  ext i hi
  simp

/-- What the groups counted at the front are. -/
theorem take_zeroRun (groups : List UInt16) :
    groups.take (zeroRun groups) = List.replicate (zeroRun groups) 0 := by
  unfold zeroRun
  induction groups with
  | nil => rfl
  | cons g groups ih =>
    by_cases hg : g = 0
    · simp [hg, ih, List.replicate_succ]
    · simp [hg]

theorem zeroRun_le_length (groups : List UInt16) : zeroRun groups ≤ groups.length :=
  List.takeWhile_prefix _ |>.length_le

/-- A run of zero groups lies within the groups, and is one. -/
theorem longestZeroRun_spec (index : Nat) (groups : List UInt16) :
    0 < (longestZeroRun index groups).2 →
      index ≤ (longestZeroRun index groups).1 ∧
        (longestZeroRun index groups).1 - index + (longestZeroRun index groups).2 ≤
          groups.length ∧
        (groups.drop ((longestZeroRun index groups).1 - index)).take
            (longestZeroRun index groups).2 =
          List.replicate (longestZeroRun index groups).2 0 := by
  induction groups generalizing index with
  | nil => intro h; simp [longestZeroRun] at h
  | cons g groups ih =>
    intro h
    unfold longestZeroRun at h ⊢
    dsimp only at h ⊢
    split at h
    · -- The run begins here, where the zeros are counted.
      next hhere =>
      rw [if_pos hhere]
      simp only [Nat.sub_self, List.drop_zero, Nat.zero_add]
      exact ⟨Nat.le_refl _, zeroRun_le_length _, take_zeroRun _⟩
    · -- It begins further on, so all of it is one place further on.
      next hlater =>
      rw [if_neg hlater]
      obtain ⟨hle, hlength, hzeros⟩ := ih (index + 1) h
      have hstart : (longestZeroRun (index + 1) groups).1 - index =
          (longestZeroRun (index + 1) groups).1 - (index + 1) + 1 := by omega
      rw [hstart, List.drop_succ_cons]
      refine ⟨by omega, ?_, hzeros⟩
      rw [List.length_cons]
      omega

/-- An address that is shortened is what stands in front of the two colons, zeros, and what stands
    behind them. -/
theorem eq_of_longestZeroRun {groups : List UInt16} (h : 0 < (longestZeroRun 0 groups).2) :
    groups = groups.take (longestZeroRun 0 groups).1 ++
      List.replicate (longestZeroRun 0 groups).2 0 ++
      groups.drop ((longestZeroRun 0 groups).1 + (longestZeroRun 0 groups).2) := by
  obtain ⟨-, -, hzeros⟩ := longestZeroRun_spec 0 groups h
  rw [Nat.sub_zero] at hzeros
  rw [← hzeros, List.append_assoc, ← List.drop_drop, List.take_append_drop,
    List.take_append_drop]

/-- A group is made of its two octets. -/
theorem ofNat_octets (g : UInt16) :
    UInt16.ofNat ((UInt8.ofNat (g.toNat / 256)).toNat * 256 + (UInt8.ofNat g.toNat).toNat) = g := by
  have hg : g.toNat < 65536 := g.toNat_lt
  rw [← UInt16.toNat_inj]
  simp only [UInt8.toNat_ofNat', UInt16.toNat_ofNat']
  omega

/-- The octets of an address that stands for an IPv4 one are its last two groups. -/
theorem groups_of_mapped {x : Ip6} {inner : Ip4} (h : x.mapped? = some inner) :
    x.groups.toList = [0, 0, 0, 0, 0, 0xFFFF, inner.groups.1, inner.groups.2] := by
  unfold Ip6.mapped? at h
  split at h
  · next high low hgroups =>
    obtain rfl := Option.some.inj h
    rw [hgroups]
    simp only [Ip4.groups, ofNat_octets]
  · cases h

/-- Groups in front of two colons and groups behind them, with room for a zero group. -/
theorem Ip6.read_shortened {head tail : List UInt16} (hroom : head.length + tail.length < 8)
    (h : EndsAddress rest) :
    Ip6.read (groupChars head ++ ':' :: ':' :: (groupChars tail ++ rest)) =
      some (Ip6.ofParts head tail, rest) := by
  have hfront : head.length ≤ 8 := by omega
  have hback : tail.length ≤ 7 - head.length := by omega
  have hhead := groupsUpTo_groupChars hfront
    (endsGroup_colon _) (endsGroups_two_colons (groupChars tail ++ rest))
  have htail := groupsUpTo_groupChars hback h.toEndsGroup h.endsGroups
  have hne : ¬ head.length = 8 := by omega
  unfold Ip6.read
  simp [hhead, hne, htail]

/-- The text of an address that stands for an IPv4 one. -/
theorem Ip6.read_mapped (inner : Ip4) (h : EndsAddress rest) :
    Ip6.read ("::ffff:".toList ++ inner.chars ++ rest) =
      some (Ip6.ofParts [] [0xFFFF, inner.groups.1, inner.groups.2], rest) := by
  have htext : "::ffff:".toList ++ inner.chars ++ rest =
      ':' :: ':' :: (hexadecimal (0xFFFF : UInt16).toNat ++ ':' :: (inner.chars ++ rest)) := by
    rw [List.append_assoc]
    rfl
  have hfront : ([] : List UInt16).length ≤ 8 := Nat.zero_le 8
  have hhead := groupsUpTo_groupChars hfront (endsGroup_colon _) (endsGroups_two_colons
      (hexadecimal (0xFFFF : UInt16).toNat ++ ':' :: (inner.chars ++ rest)))
  have hcolon := endsGroup_colon (inner.chars ++ rest)
  have hinner := inner.read_chars (stops_ten_of_sixteen h.stops)
  -- Behind the group and a colon the dotted form is tried first.
  have htail : groupsUpTo 7 true
      (hexadecimal (0xFFFF : UInt16).toNat ++ ':' :: (inner.chars ++ rest)) =
        ([0xFFFF, inner.groups.1, inner.groups.2], true, rest) := by
    simp only [groupsUpTo, separated, Ip4.read_group _ hcolon, group_hexadecimal _ hcolon.stops,
      hinner, given_cons_self, if_true, if_false, Nat.reduceEqDiff, Bool.false_eq_true]
  unfold Ip6.read
  rw [htext]
  rw [groupChars, List.nil_append] at hhead
  generalize hexadecimal (0xFFFF : UInt16).toNat ++ ':' :: (inner.chars ++ rest) = after
    at hhead htail ⊢
  simp [hhead, htail]

/-- The text of an IPv6 address is read back where an address may end. -/
theorem Ip6.read_chars (x : Ip6) (h : EndsAddress rest) :
    Ip6.read (x.chars ++ rest) = some (x, rest) := by
  have hlength : x.groups.toList.length = 8 := by simp
  unfold Ip6.chars
  cases hmapped : x.mapped? with
  | some inner =>
    -- The last two groups are written as the dotted form.
    have hparts : Ip6.ofParts [] [0xFFFF, inner.groups.1, inner.groups.2] = x :=
      Ip6.ofParts_eq (groups_of_mapped hmapped)
    rw [Ip6.read_mapped inner h, hparts]
  | none =>
    dsimp only
    split
    · next hlong =>
      -- Zeros are left out, and the others are read on both sides.
      have hrun : 0 < (longestZeroRun 0 x.groups.toList).2 := by omega
      have hzeros := eq_of_longestZeroRun hrun
      generalize longestZeroRun 0 x.groups.toList = run at hlong hzeros ⊢
      obtain ⟨start, count⟩ := run
      dsimp only at hlong hzeros ⊢
      generalize x.groups.toList.take start = head at hzeros ⊢
      generalize x.groups.toList.drop (start + count) = tail at hzeros ⊢
      have hcount : head.length + count + tail.length = 8 := by
        rw [hzeros] at hlength
        simp only [List.length_append, List.length_replicate] at hlength
        exact hlength
      have hparts : Ip6.ofParts head tail = x := by
        refine Ip6.ofParts_eq ?_
        rw [hzeros, show 8 - head.length - tail.length = count by omega]
      rw [List.append_assoc, List.cons_append, List.cons_append,
        Ip6.read_shortened (by omega) h, hparts]
    · -- All groups stand there.
      have hread := groupsUpTo_groupChars (Nat.le_of_eq hlength) h.toEndsGroup
        h.endsGroups
      have hparts : Ip6.ofParts x.groups.toList [] = x := by
        refine Ip6.ofParts_eq ?_
        simp
      unfold Ip6.read
      simp only [hread, hlength, if_true, hparts]

/-- The text of an IPv6 address does not begin with a dotted form. -/
theorem Ip4.read_ip6 (x : Ip6) (h : EndsAddress rest) : Ip4.read (x.chars ++ rest) = none := by
  have hcolon : ∀ cs, Ip4.read (':' :: cs) = none := fun cs =>
    Ip4.read_of_stops (by rw [stops_cons]; decide)
  -- Groups at the front are no dotted form, and without any there are two colons.
  have hgroups : ∀ groups cs, EndsGroup cs → (groups = [] → cs.head? = some ':') →
      Ip4.read (groupChars groups ++ cs) = none := by
    intro groups cs hends hnil
    cases groups with
    | nil =>
      obtain ⟨after, rfl⟩ := List.head?_eq_some_iff.1 (hnil rfl)
      exact hcolon after
    | cons g groups =>
      rw [groupChars_cons, List.append_assoc]
      exact Ip4.read_group _ (endsGroup_colonChars groups hends)
  unfold Ip6.chars
  cases x.mapped? with
  | some inner => exact hcolon _
  | none =>
    dsimp only
    split
    · rw [List.append_assoc]
      exact hgroups _ _ (endsGroup_colon _) fun _ => rfl
    · refine hgroups _ _ h.toEndsGroup fun hnil => ?_
      have hlength : x.groups.toList.length = 8 := by simp
      rw [hnil] at hlength
      cases hlength

/-! ### Texts -/

theorem endsAddress_nil : EndsAddress [] where
  stops := stops_nil
  noPoint := by simp
  noColon := by simp

/-- The text of an address is read as that address. -/
theorem Ip.parse?_text (x : Ip) : Ip.parse? x.text = some x := by
  unfold Ip.parse? Ip.text
  rw [String.toList_ofList]
  cases x with
  | v4 address =>
    have hread := address.read_chars stops_nil
    rw [List.append_nil] at hread
    simp [complete, Ip.read, Ip.chars, hread]
  | v6 address =>
    have hread := address.read_chars endsAddress_nil
    have hfour := Ip4.read_ip6 address endsAddress_nil
    rw [List.append_nil] at hread hfour
    simp [complete, Ip.read, Ip.chars, hread, hfour]

theorem portNumber_chars (port : UInt16) :
    portNumber (':' :: decimal port.toNat) = some (port, []) := by
  have hport : port.toNat < UInt16.size := port.toNat_lt
  have hread := number_decimal hport stops_nil
  rw [List.append_nil] at hread
  simp [portNumber, hread]

/-- What an endpoint has between its address and the bracket. -/
def scopeChars (scope : UInt32) : List Char :=
  if scope = 0 then [] else '%' :: decimal scope.toNat

theorem endsAddress_scopeChars (scope : UInt32) (cs : List Char) :
    EndsAddress (scopeChars scope ++ ']' :: cs) := by
  unfold scopeChars
  split
  · exact ⟨⟨by rw [List.nil_append, stops_cons]; decide, by simp⟩, by simp⟩
  · exact ⟨⟨by rw [List.cons_append, stops_cons]; decide, by simp⟩, by simp⟩

theorem scopeNumber_scopeChars (scope : UInt32) (cs : List Char) :
    scopeNumber (scopeChars scope ++ ']' :: cs) = some (scope, ']' :: cs) := by
  unfold scopeChars
  split
  · next hscope => simp [scopeNumber, given, hscope]
  · have hread : number UInt32.size (decimal scope.toNat ++ ']' :: cs) =
        some (scope.toNat, ']' :: cs) :=
      number_decimal scope.toNat_lt (by rw [stops_cons]; decide)
    simp [scopeNumber, hread]

/-- The text of an endpoint is read as that endpoint. -/
theorem Endpoint.parse?_text (x : Endpoint) : Endpoint.parse? x.text = some x := by
  unfold Endpoint.parse? Endpoint.text
  rw [String.toList_ofList]
  cases x with
  | v4 address port =>
    have hread : Ip4.read (address.chars ++ ':' :: decimal port.toNat) = some (address, _) :=
      address.read_chars (by rw [stops_cons]; decide)
    simp [complete, Endpoint.read, Endpoint.read4, Endpoint.chars, hread, portNumber_chars]
  | v6 address scope port =>
    have htext : (Endpoint.v6 address scope port).chars =
        '[' :: (address.chars ++ (scopeChars scope ++ ']' :: ':' :: decimal port.toNat)) := by
      simp [Endpoint.chars, scopeChars]
    have hbracket : Endpoint.read4
        ('[' :: (address.chars ++ (scopeChars scope ++ ']' :: ':' :: decimal port.toNat))) =
          none := by
      simp [Endpoint.read4, Ip4.read_of_stops, digit10?]
    have hread := address.read_chars
      (endsAddress_scopeChars scope (':' :: decimal port.toNat))
    simp [complete, Endpoint.read, htext, hbracket, Endpoint.read6, hread,
      scopeNumber_scopeChars, portNumber_chars]

end EventBridge.Net
