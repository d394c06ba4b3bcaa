import EventBridge.Proofs.Result
import EventBridge.Text.Base64
import EventBridge.Text.Utf8

/-! # Base64 has one text for some bytes

  Reading accepts what writing gives, and nothing else: `decode_eq_ok_iff`. As bytes have one such
  text, so has a string: `text` is that of some bytes, and `decode_utf8_iff` says that no other
  string is read as those bytes.

  * `groups` are the six-bit groups of bytes, and `padding` says how many pads stand behind them:
    `encode_eq` has a text as letters and pads.
  * `letters_of_symbols` and `letters_of_ending` say which texts the two stretches of a text may be.
    The pads of the last stretch have their places in a block of four.
  * `groups_join`: groups that leave no bits over are those of the bytes that they are joined to.
    This is where a text with bits set that no byte takes up drops out.
-/

namespace EventBridge.Text.Base64

/-! ### Letters -/

theorem sextet?_letter {n : Nat} (h : n < 64) : sextet? (letter n) = some n := by
  have hall : ∀ n < 64, sextet? (letter n) = some n := by decide
  exact hall n h

theorem letter_ne_pad {n : Nat} (h : n < 64) : letter n ≠ pad := by
  have hall : ∀ n < 64, letter n ≠ pad := by decide
  exact hall n h

/-- A byte that is a letter is the letter of its bits. -/
theorem letter_of_sextet? {byte : UInt8} {n : Nat} (h : sextet? byte = some n) :
    n < 64 ∧ letter n = byte := by
  have hall : ∀ b < 256, ∀ n ∈ sextet? (UInt8.ofNat b), n < 64 ∧ letter n = UInt8.ofNat b := by
    decide +kernel
  have hbyte := hall byte.toNat byte.toNat_lt
  rw [UInt8.ofNat_toNat] at hbyte
  exact hbyte n h

/-! ### Groups of six bits -/

/-- The six-bit groups of bytes, the last one filled up with zeros. -/
def groups : List UInt8 → List Nat
  | [] => []
  | [a] => [a.toNat / 4, a.toNat % 4 * 16]
  | [a, b] =>
    let n := a.toNat * 256 + b.toNat
    [n / 1024, n / 16 % 64, n % 16 * 4]
  | a :: b :: c :: rest =>
    let n := (a.toNat * 256 + b.toNat) * 256 + c.toNat
    n / 262144 :: n / 4096 % 64 :: n / 64 % 64 :: n % 64 :: groups rest

/-- How many pads fill up the text of bytes. -/
def padding (bytes : List UInt8) : Nat := (3 - bytes.length % 3) % 3

/-- The text of bytes is the letters of their groups, and pads. -/
theorem encode_eq (bytes : List UInt8) :
    encode bytes = (groups bytes).map letter ++ List.replicate (padding bytes) pad := by
  induction bytes using groups.induct with
  | case1 => rfl
  | case2 a => rfl
  | case3 a b => rfl
  | case4 a b c rest ih =>
    have hpadding : padding (a :: b :: c :: rest) = padding rest := by
      simp only [padding, List.length_cons]
      omega
    simp [encode, groups, ih, hpadding]

theorem groups_lt (bytes : List UInt8) : ∀ n ∈ groups bytes, n < 64 := by
  induction bytes using groups.induct with
  | case1 => simp [groups]
  | case2 a =>
    have ha := a.toNat_lt
    simp [groups]
    omega
  | case3 a b =>
    have ha := a.toNat_lt
    have hb := b.toNat_lt
    simp [groups]
    omega
  | case4 a b c rest ih =>
    have ha := a.toNat_lt
    have hb := b.toNat_lt
    have hc := c.toNat_lt
    simp only [groups, List.mem_cons, forall_eq_or_imp]
    refine ⟨?_, ?_, ?_, ?_, ih⟩ <;> omega

/-- Groups and pads come in fours. -/
theorem length_groups (bytes : List UInt8) :
    ((groups bytes).length + padding bytes) % 4 = 0 ∧ padding bytes ≤ 2 := by
  induction bytes using groups.induct with
  | case1 => decide
  | case2 a => simp [groups, padding]
  | case3 a b => simp [groups, padding]
  | case4 a b c rest ih =>
    simp only [groups, padding, List.length_cons] at ih ⊢
    omega

/-- Writing leaves no bits over. -/
theorem spare_groups (bytes : List UInt8) : spare (groups bytes) = 0 := by
  induction bytes using groups.induct with
  | case1 => rfl
  | case2 a =>
    simp [groups, spare]
  | case3 a b =>
    simp [groups, spare]
  | case4 a b c rest ih => exact ih

theorem join_groups (bytes : List UInt8) : join (groups bytes) = bytes := by
  have hbyte : ∀ (n : Nat) (byte : UInt8), n % 256 = byte.toNat → UInt8.ofNat n = byte := by
    intro n byte h
    apply UInt8.toNat_inj.1
    rw [UInt8.toNat_ofNat']
    exact h
  induction bytes using groups.induct with
  | case1 => rfl
  | case2 a =>
    have ha := a.toNat_lt
    simp only [groups, join, List.cons.injEq, and_true]
    exact hbyte _ _ (by omega)
  | case3 a b =>
    have ha := a.toNat_lt
    have hb := b.toNat_lt
    simp only [groups, join, List.cons.injEq, and_true]
    refine ⟨hbyte _ _ ?_, hbyte _ _ ?_⟩ <;> omega
  | case4 a b c rest ih =>
    have ha := a.toNat_lt
    have hb := b.toNat_lt
    have hc := c.toNat_lt
    simp only [groups, join, ih, List.cons.injEq, and_true]
    refine ⟨hbyte _ _ ?_, hbyte _ _ ?_, hbyte _ _ ?_⟩ <;> omega

/-- Groups that leave no bits over are those of the bytes that they are joined to. -/
theorem groups_join {ns : List Nat} (hlt : ∀ n ∈ ns, n < 64) (hspare : spare ns = 0)
    (hlength : ns.length % 4 ≠ 1) : groups (join ns) = ns := by
  induction ns using join.induct with
  | case1 a b c d rest ih =>
    obtain ⟨ha, hb, hc, hd, hrest⟩ : a < 64 ∧ b < 64 ∧ c < 64 ∧ d < 64 ∧ ∀ n ∈ rest, n < 64 := by
      simpa using hlt
    have hmore : rest.length % 4 ≠ 1 := by
      simp only [List.length_cons] at hlength
      omega
    simp only [join, groups, ih hrest hspare hmore, UInt8.toNat_ofNat', List.cons.injEq, and_true]
    refine ⟨?_, ?_, ?_, ?_⟩ <;> omega
  | case2 a b c =>
    obtain ⟨ha, hb, hc⟩ : a < 64 ∧ b < 64 ∧ c < 64 := by simpa using hlt
    have hbits : c % 4 = 0 := hspare
    simp only [join, groups, UInt8.toNat_ofNat', List.cons.injEq, and_true]
    refine ⟨?_, ?_, ?_⟩ <;> omega
  | case3 a b =>
    obtain ⟨ha, hb⟩ : a < 64 ∧ b < 64 := by simpa using hlt
    have hbits : b % 16 = 0 := hspare
    simp only [join, groups, UInt8.toNat_ofNat', List.cons.injEq, and_true]
    refine ⟨?_, ?_⟩ <;> omega
  | case4 ns hfour hthree htwo =>
    -- One group alone is no whole byte.
    match ns with
    | [] => rfl
    | [a] => simp at hlength
    | [a, b] => exact absurd rfl (htwo a b)
    | [a, b, c] => exact absurd rfl (hthree a b c)
    | a :: b :: c :: d :: rest => exact absurd rfl (hfour a b c d rest)

/-- Groups that leave no bits over, with the pads that make them fours, are the text of the bytes
    that they are joined to. -/
theorem encode_join {ns : List Nat} {pads : Nat} (hlt : ∀ n ∈ ns, n < 64) (hspare : spare ns = 0)
    (hfours : (ns.length + pads) % 4 = 0) (hfew : pads ≤ 2) :
    encode (join ns) = ns.map letter ++ List.replicate pads pad := by
  have hgroups : groups (join ns) = ns := groups_join hlt hspare (by omega)
  have hpads : padding (join ns) = pads := by
    obtain ⟨hjoined, hjoinedFew⟩ := length_groups (join ns)
    rw [hgroups] at hjoined
    omega
  rw [encode_eq, hgroups, hpads]

/-! ### Letters alone -/

theorem symbols_letters {ns : List Nat} (h : ∀ n ∈ ns, n < 64) (offset : Nat) :
    symbols offset (ns.map letter) = .ok ns := by
  induction ns generalizing offset with
  | nil => rfl
  | cons n ns ih =>
    have hn : sextet? (letter n) = some n := sextet?_letter (h n List.mem_cons_self)
    have hns := ih (fun m hm => h m (List.mem_cons_of_mem _ hm)) (offset + 1)
    simp [symbols, hn, hns]

theorem letters_of_symbols {offset : Nat} {text : List UInt8} {ns : List Nat}
    (h : symbols offset text = .ok ns) : text = ns.map letter ∧ ∀ n ∈ ns, n < 64 := by
  induction text generalizing offset ns with
  | nil =>
    cases h
    simp
  | cons byte rest ih =>
    cases hbyte : sextet? byte with
    | none => simp [symbols, hbyte] at h
    | some n =>
      simp only [symbols, hbyte] at h
      obtain ⟨others, hothers, rfl⟩ := ok_of_map h
      obtain ⟨hn, hletter⟩ := letter_of_sextet? hbyte
      obtain ⟨hrest, hlt⟩ := ih hothers
      simpa [hletter, hrest, hn] using hlt

/-! ### The last stretch -/

/-- Every pad from an index on has a place among the last two of a block of four. -/
def PadsFit (i pads : Nat) : Prop := ∀ j < pads, 2 ≤ (i + j) % 4

theorem padsFit_succ {i pads : Nat} : PadsFit i (pads + 1) ↔ 2 ≤ i % 4 ∧ PadsFit (i + 1) pads := by
  constructor
  · intro h
    refine ⟨h 0 (by omega), fun j hj => ?_⟩
    have hnext := h (j + 1) (by omega)
    rwa [Nat.add_right_comm]
  · rintro ⟨hi, h⟩ j hj
    cases j with
    | zero => exact hi
    | succ j =>
      have hnext := h j (by omega)
      rwa [Nat.add_right_comm] at hnext

theorem ending_pads {i pads : Nat} (h : PadsFit i pads) (start : Nat) (first : Option Nat) :
    ending start i first (List.replicate pads pad) = .ok ([], pads) := by
  induction pads generalizing i first with
  | zero => rfl
  | succ pads ih =>
    obtain ⟨hi, hmore⟩ := padsFit_succ.1 h
    have hplace : ¬ i % 4 < 2 := by omega
    simp [List.replicate_succ, ending, hplace, ih hmore]

theorem ending_letters {ns : List Nat} (hlt : ∀ n ∈ ns, n < 64) {i pads : Nat}
    (h : PadsFit (i + ns.length) pads) (start : Nat) :
    ending start i none (ns.map letter ++ List.replicate pads pad) = .ok (ns, pads) := by
  induction ns generalizing i with
  | nil => exact ending_pads h start none
  | cons n ns ih =>
    have hn : n < 64 := hlt n List.mem_cons_self
    have hrest := ih (i := i + 1) (fun m hm => hlt m (List.mem_cons_of_mem _ hm)) (by
      rw [List.length_cons] at h
      rwa [Nat.add_right_comm])
    simp [ending, letter_ne_pad hn, sextet?_letter hn, hrest]

/-- A stretch that is read is letters and pads, and no letter comes behind a pad. -/
theorem letters_of_ending {start i : Nat} {first : Option Nat} {text : List UInt8} {ns : List Nat}
    {pads : Nat} (h : ending start i first text = .ok (ns, pads)) :
    text = ns.map letter ++ List.replicate pads pad ∧ (∀ n ∈ ns, n < 64) ∧
      PadsFit (i + ns.length) pads ∧ (first.isSome → ns = []) := by
  induction text generalizing i first ns pads with
  | nil =>
    cases h
    simp [PadsFit]
  | cons byte rest ih =>
    by_cases hpad : byte = pad
    · subst hpad
      by_cases hi : i % 4 < 2
      · simp [ending, hi] at h
      · simp only [ending, if_true, hi, if_false] at h
        obtain ⟨⟨others, more⟩, hothers, heq⟩ := ok_of_map h
        cases heq
        -- There is a first pad from here on, so only pads follow.
        obtain ⟨hrest, -, hfit, hnone⟩ := ih hothers
        obtain rfl : others = [] := hnone rfl
        have hplaces : PadsFit i (more + 1) := padsFit_succ.2 ⟨by omega, hfit⟩
        simpa [hrest, List.replicate_succ] using hplaces
    · cases first with
      | some index => simp [ending, hpad] at h
      | none =>
        cases hbyte : sextet? byte with
        | none => simp [ending, hpad, hbyte] at h
        | some n =>
          simp only [ending, hpad, if_false, hbyte] at h
          obtain ⟨⟨others, more⟩, hothers, heq⟩ := ok_of_map h
          cases heq
          obtain ⟨hn, hletter⟩ := letter_of_sextet? hbyte
          obtain ⟨hrest, hlt, hfit, -⟩ := ih hothers
          have hplaces : PadsFit (i + (others.length + 1)) more := by
            rwa [Nat.add_right_comm] at hfit
          simpa [hletter, hrest, hn] using ⟨hlt, hplaces⟩

/-! ### Texts -/

/-- Where the last stretch of a text begins. -/
def lastStretch (size : Nat) : Nat := size - (if size % 8 = 0 then 8 else size % 8)

theorem decode_eq (text : List UInt8) (h : text.length % 4 ≠ 1) :
    decode text = (do
      let before ← symbols 0 (text.take (lastStretch text.length))
      let (after, pads) ← ending (lastStretch text.length) 0 none
        (text.drop (lastStretch text.length))
      if (after.length + pads) % 4 ≠ 0 then .error .padding
      else if spare (before ++ after) ≠ 0 then
        .error (.lastSymbol (letter ((before ++ after).getLastD 0)) ((before ++ after).length - 1))
      else .ok (join (before ++ after))) := by
  unfold decode
  rw [if_neg h]
  rfl

/-- The text of bytes is read as those bytes. -/
theorem decode_encode (bytes : List UInt8) : decode (encode bytes) = .ok bytes := by
  obtain ⟨hfours, hfew⟩ := length_groups bytes
  have hlt := groups_lt bytes
  have hsize : (encode bytes).length = (groups bytes).length + padding bytes := by
    simp [encode_eq]
  rw [decode_eq _ (by omega)]
  generalize hstart : lastStretch (encode bytes).length = start
  -- The pads are in the last block of four, so the first stretch has letters only.
  have hblock : start % 4 = 0 ∧ start ≤ (groups bytes).length := by
    rw [← hstart, lastStretch, hsize]
    split <;> omega
  obtain ⟨hstart4, hle⟩ := hblock
  have htake : (encode bytes).take start = ((groups bytes).take start).map letter := by
    rw [encode_eq, List.take_append_of_le_length (by simpa using hle), List.map_take]
  have hdrop : (encode bytes).drop start =
      ((groups bytes).drop start).map letter ++ List.replicate (padding bytes) pad := by
    rw [encode_eq, List.drop_append_of_le_length (by simpa using hle), List.map_drop]
  have hfit : PadsFit (0 + ((groups bytes).drop start).length) (padding bytes) := by
    intro j hj
    rw [List.length_drop]
    omega
  have hbefore : symbols 0 (((groups bytes).take start).map letter) =
      .ok ((groups bytes).take start) :=
    symbols_letters (fun n hn => hlt n (List.mem_of_mem_take hn)) 0
  have hafter := ending_letters (fun n hn => hlt n (List.mem_of_mem_drop hn)) hfit start
  have hcount : (((groups bytes).drop start).length + padding bytes) % 4 = 0 := by
    rw [List.length_drop]
    omega
  rw [htake, hdrop, hbefore, hafter]
  simp only [ok_bind, hcount, List.take_append_drop, spare_groups, join_groups, ne_eq,
    not_true_eq_false, if_false]

/-- What is read is the text of the bytes that it is read as. -/
theorem encode_of_decode {text bytes : List UInt8} (h : decode text = .ok bytes) :
    text = encode bytes := by
  have hone : text.length % 4 ≠ 1 := by
    intro hone
    simp only [decode, hone, if_true] at h
    split at h
    · split at h <;> cases h
    · cases h
  rw [decode_eq _ hone] at h
  generalize hstart : lastStretch text.length = start at h
  have hstart4 : start % 4 = 0 := by
    rw [← hstart, lastStretch]
    split <;> omega
  obtain ⟨before, hbefore, h⟩ := ok_of_bind h
  obtain ⟨⟨after, pads⟩, hafter, h⟩ := ok_of_bind h
  dsimp only at h
  split at h
  · cases h
  · next hcount =>
    split at h
    · cases h
    · next hspare =>
      cases h
      obtain ⟨htake, hlt⟩ := letters_of_symbols hbefore
      obtain ⟨hdrop, hlt', hfit, -⟩ := letters_of_ending hafter
      have hletters : ∀ n ∈ before ++ after, n < 64 := by
        intro n hn
        rcases List.mem_append.1 hn with hn | hn
        · exact hlt n hn
        · exact hlt' n hn
      have hfours : ((before ++ after).length + pads) % 4 = 0 := by
        have hlength := congrArg List.length htake
        have hle : start ≤ text.length := by
          rw [← hstart, lastStretch]
          omega
        rw [List.length_take, List.length_map] at hlength
        rw [List.length_append]
        omega
      -- With a third pad, one would stand second in its block.
      have hfew : pads ≤ 2 := by
        refine Nat.not_lt.1 fun hthree => ?_
        have hplace := hfit (pads - 3) (by omega)
        omega
      have htext : text = (before ++ after).map letter ++ List.replicate pads pad := by
        rw [← List.take_append_drop start text, htake, hdrop]
        simp
      rw [htext, encode_join hletters (Classical.not_not.1 hspare) hfours hfew]

/-- A text is read as bytes exactly if it is the text of those bytes. -/
theorem decode_eq_ok_iff {text bytes : List UInt8} :
    decode text = .ok bytes ↔ text = encode bytes := by
  constructor
  · exact encode_of_decode
  · rintro rfl
    exact decode_encode bytes

/-! ### Strings -/

/-- The base64 text of bytes. -/
def text (bytes : ByteArray) : String :=
  String.ofList ((encode bytes.data.toList).map fun byte => Char.ofNat byte.toNat)

/-- A base64 text has no bytes beyond ASCII. -/
theorem ascii_encode (bytes : List UInt8) : ∀ byte ∈ encode bytes, byte.toNat < 128 := by
  have hletter : ∀ n < 64, (letter n).toNat < 128 := by decide
  intro byte hbyte
  rw [encode_eq] at hbyte
  rcases List.mem_append.1 hbyte with hbyte | hbyte
  · obtain ⟨n, hn, rfl⟩ := List.mem_map.1 hbyte
    exact hletter n (groups_lt bytes n hn)
  · rw [List.eq_of_mem_replicate hbyte]
    decide

theorem utf8EncodeChar_ascii {byte : UInt8} (h : byte.toNat < 128) :
    String.utf8EncodeChar (Char.ofNat byte.toNat) = [byte] := by
  have hall : ∀ n < 128, String.utf8EncodeChar (Char.ofNat n) = [UInt8.ofNat n] := by decide
  rw [hall byte.toNat h, UInt8.ofNat_toNat]

/-- ASCII characters are their bytes. -/
theorem flatMap_utf8EncodeChar {ascii : List UInt8} (h : ∀ byte ∈ ascii, byte.toNat < 128) :
    (ascii.map fun byte => Char.ofNat byte.toNat).flatMap String.utf8EncodeChar = ascii := by
  induction ascii with
  | nil => rfl
  | cons byte rest ih =>
    have hbyte := utf8EncodeChar_ascii (h byte List.mem_cons_self)
    have hrest := ih fun b hb => h b (List.mem_cons_of_mem _ hb)
    rw [List.map_cons, List.flatMap_cons, hbyte, hrest, List.singleton_append]

theorem utf8_text (bytes : ByteArray) : Utf8.encode (text bytes) = encode bytes.data.toList := by
  have hchars := flatMap_utf8EncodeChar (ascii_encode bytes.data.toList)
  simp [Utf8.encode, text, String.toUTF8, String.toByteArray_ofList, List.utf8Encode, hchars]

/-- A string is read as bytes exactly if it is the base64 text of those bytes. -/
theorem decode_utf8_iff {s : String} {bytes : ByteArray} :
    decode (Utf8.encode s) = .ok bytes.data.toList ↔ s = text bytes := by
  rw [decode_eq_ok_iff, ← utf8_text]
  constructor
  · intro h
    have hbytes : s.toUTF8 = (text bytes).toUTF8 := ByteArray.ext (Array.toList_inj.1 h)
    exact String.toByteArray_inj.1 hbytes
  · rintro rfl
    rfl

end EventBridge.Text.Base64
