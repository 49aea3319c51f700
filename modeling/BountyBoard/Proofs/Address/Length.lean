import BountyBoard.Proofs.Address
import Mathlib.Data.Nat.Digits.Lemmas

/-!
# How long the text of an address is

The text of an address has one `1` for each leading zero byte, and behind them
the digits of the number that the other bytes stand for. A number has no fewer
digits in base 58 than in base 256 (`length_le_length_convert`). How many more
it can have is decided by the longest strings alone: from `256 ^ 32 ≤ 58 ^ 44`
it follows that up to thirty-two bytes take at most twelve characters beyond
their number (`length_convert_le`), however many of the bytes are leading zeros.

So every text has between 32 and 44 characters, and the abbreviation can always
be cut from it: the characters of the alphabet are one byte long, and there are
more than eight of them. A text that is read as an address is the text of that
address, so no text of another length is read as one.
-/

namespace BountyBoard

namespace Radix

/-! ## Numbers of digits -/

variable {a b c n k : ℕ} {ds : List ℕ}

/-- The library puts the least significant digit first. -/
theorem digits_eq_reverse (hb : 2 ≤ b) (n : ℕ) : digits b n = (Nat.digits b n).reverse := by
  induction n using Nat.strongRecOn with
  | ind n ih =>
      obtain rfl | hn := Nat.eq_zero_or_pos n
      · rw [digits_zero, Nat.digits_zero, List.reverse_nil]
      · rw [digits_of_pos hb hn, ih _ (Nat.div_lt_self hn hb), Nat.digits_def' hb hn,
          List.reverse_cons]

theorem length_digits_le_iff (hb : 2 ≤ b) : (digits b n).length ≤ k ↔ n < b ^ k := by
  rw [digits_eq_reverse hb, List.length_reverse, Nat.digits_length_le_iff hb]

theorem lt_pow_length_digits (hb : 2 ≤ b) (n : ℕ) : n < b ^ (digits b n).length :=
  (length_digits_le_iff hb).mp le_rfl

theorem leadingZeros_convert (hb : 2 ≤ b) (ds : List ℕ) :
    leadingZeros (convert a b ds) = leadingZeros ds :=
  leadingZeros_replicate_append _ (head?_digits_ne hb _)

theorem length_convert (a b : ℕ) (ds : List ℕ) :
    (convert a b ds).length = leadingZeros ds + (digits b (value a ds)).length := by
  rw [convert, List.length_append, List.length_replicate]

/-- Digits below the base are the leading zeros and the digits of the number. -/
theorem length_eq (ha : 2 ≤ a) (hlt : ∀ d ∈ ds, d < a) :
    ds.length = leadingZeros ds + (digits a (value a ds)).length := by
  rw [← length_convert, convert_self ha hlt]

/-- In a smaller base no digit string gets shorter. -/
theorem length_le_length_convert (hb : 2 ≤ b) (hba : b ≤ a) (hlt : ∀ d ∈ ds, d < a) :
    ds.length ≤ (convert a b ds).length := by
  have ha : 2 ≤ a := hb.trans hba
  have hdigits : (digits a (value a ds)).length ≤ (digits b (value a ds)).length :=
    (length_digits_le_iff ha).mpr
      ((lt_pow_length_digits hb _).trans_le (Nat.pow_le_pow_left hba _))
  rw [length_eq ha hlt, length_convert]
  exact Nat.add_le_add_left hdigits _

/-- What is enough for the longest strings is enough for the shorter ones. -/
theorem pow_le_pow_add (hb : 0 < b) (hba : b ≤ a) (hpow : a ^ n ≤ b ^ (n + c)) (hk : k ≤ n) :
    a ^ k ≤ b ^ (k + c) := by
  obtain ⟨j, rfl⟩ := Nat.exists_eq_add_of_le hk
  have hpos : 0 < a ^ j := Nat.pow_pos (hb.trans_le hba)
  refine Nat.le_of_mul_le_mul_right ?_ hpos
  calc a ^ k * a ^ j = a ^ (k + j) := (pow_add a k j).symm
    _ ≤ b ^ (k + j + c) := hpow
    _ = b ^ (k + c) * b ^ j := by rw [Nat.add_right_comm, pow_add]
    _ ≤ b ^ (k + c) * a ^ j := Nat.mul_le_mul_left _ (Nat.pow_le_pow_left hba j)

/-- In a smaller base a digit string gets longer by at most `c`, if this is
so for the longest ones. -/
theorem length_convert_le (hb : 2 ≤ b) (hba : b ≤ a) (hpow : a ^ n ≤ b ^ (n + c))
    (hlt : ∀ d ∈ ds, d < a) (hlength : ds.length ≤ n) :
    (convert a b ds).length ≤ ds.length + c := by
  have ha : 2 ≤ a := hb.trans hba
  have hds := length_eq ha hlt
  have hvalue : value a ds < b ^ ((digits a (value a ds)).length + c) :=
    (lt_pow_length_digits ha _).trans_le (pow_le_pow_add (by omega) hba hpow (by omega))
  have hdigits := (length_digits_le_iff hb).mpr hvalue
  rw [length_convert]
  omega

end Radix

namespace Base58

/-! ## Characters -/

theorem mem_alphabet_of_mem_encode {bytes : List UInt8} {c : Char} (h : c ∈ encode bytes) :
    c ∈ alphabet := by
  obtain ⟨d, hd, rfl⟩ := List.mem_map.mp h
  rw [charOf_eq_getElem (Radix.lt_of_mem_convert (by decide) hd)]
  exact List.getElem_mem _

/-- Every character of the alphabet is one byte long. -/
theorem utf8ByteSize_ofList {cs : List Char} (h : ∀ c ∈ cs, c ∈ alphabet) :
    (String.ofList cs).utf8ByteSize = cs.length := by
  have hsize : ∀ c ∈ alphabet, (c.utf8Size == 1) = true := List.all_eq_true.mp (by decide)
  induction cs with
  | nil => rfl
  | cons c rest ih =>
      have hc := beq_iff_eq.mp (hsize c (h c List.mem_cons_self))
      have hrest := ih fun d hd => h d (List.mem_cons_of_mem c hd)
      rw [← List.singleton_append, String.ofList_append, String.utf8ByteSize_append, hrest]
      have hsingle : (String.ofList [c]).utf8ByteSize = 1 := hc ▸ String.utf8ByteSize_singleton
      rw [hsingle, List.length_append, List.length_singleton]

/-- No other digit is written as the zero is. -/
theorem charOf_eq_one_iff {d : ℕ} (hd : d < 58) : charOf d = '1' ↔ d = 0 := by
  constructor
  · intro h
    have hvalue : valueOf? '1' = some d := h ▸ valueOf?_charOf hd
    exact Option.some.inj (hvalue.symm.trans rfl)
  · rintro rfl
    rfl

theorem length_takeWhile_map_charOf {ds : List ℕ} (h : ∀ d ∈ ds, d < 58) :
    ((ds.map charOf).takeWhile (· == '1')).length = Radix.leadingZeros ds := by
  induction ds with
  | nil => rfl
  | cons d rest ih =>
      have hiff := charOf_eq_one_iff (h d List.mem_cons_self)
      rw [Radix.leadingZeros] at ih ⊢
      rw [List.map_cons]
      by_cases hd : d = 0
      · rw [List.takeWhile_cons_of_pos (by simpa using hiff.mpr hd),
          List.takeWhile_cons_of_pos (by simpa using hd), List.length_cons, List.length_cons,
          ih fun e he => h e (List.mem_cons_of_mem d he)]
      · rw [List.takeWhile_cons_of_neg (by simpa using mt hiff.mp hd),
          List.takeWhile_cons_of_neg (by simpa using hd)]
        rfl

theorem leadingZeros_map_toNat (bytes : List UInt8) :
    Radix.leadingZeros (bytes.map UInt8.toNat) = (bytes.takeWhile (· == 0)).length := by
  have hzero : (· == 0) ∘ UInt8.toNat = (· == (0 : UInt8)) := by
    funext byte
    rw [Function.comp_apply, Bool.eq_iff_iff, beq_iff_eq, beq_iff_eq, ← UInt8.toNat_inj]
    rfl
  rw [Radix.leadingZeros, List.takeWhile_map, List.length_map, hzero]

/-- Each leading zero byte is one leading `1`, and there are no other ones in front. -/
theorem length_takeWhile_encode (bytes : List UInt8) :
    ((encode bytes).takeWhile (· == '1')).length = (bytes.takeWhile (· == 0)).length := by
  have hdigits : ∀ d ∈ Radix.convert 256 58 (bytes.map UInt8.toNat), d < 58 := fun d hd =>
    Radix.lt_of_mem_convert (by decide) hd
  rw [encode, length_takeWhile_map_charOf hdigits, Radix.leadingZeros_convert (by decide),
    leadingZeros_map_toNat]

theorem length_encode (bytes : List UInt8) :
    (encode bytes).length = (Radix.convert 256 58 (bytes.map UInt8.toNat)).length :=
  List.length_map _

theorem length_le_length_encode (bytes : List UInt8) : bytes.length ≤ (encode bytes).length := by
  rw [length_encode, ← List.length_map UInt8.toNat]
  exact Radix.length_le_length_convert (by decide) (by decide) fun _ => Radix.lt_of_mem_map_toNat

/-- Up to thirty-two bytes take at most twelve characters more. -/
theorem length_encode_le {bytes : List UInt8} (h : bytes.length ≤ 32) :
    (encode bytes).length ≤ bytes.length + 12 := by
  rw [← List.length_map UInt8.toNat] at h ⊢
  rw [length_encode]
  exact Radix.length_convert_le (by decide) (by decide) (by norm_num)
    (fun _ => Radix.lt_of_mem_map_toNat) h

end Base58

namespace Address

/-! ## Texts of addresses -/

theorem toList_text (a : Address) : a.text.toList = Base58.encode a.bytes :=
  String.toList_ofList

theorem length_text (a : Address) : 32 ≤ a.text.length ∧ a.text.length ≤ 44 := by
  have hbytes := a.length_bytes
  have hlower := Base58.length_le_length_encode a.bytes
  have hupper := Base58.length_encode_le hbytes.le
  rw [← String.length_toList, toList_text]
  omega

/-- A text that is read is the text of an address, and as long as these are. -/
theorem length_of_ofText {s : String} {a : Address} (h : ofText s = .ok a) :
    32 ≤ s.length ∧ s.length ≤ 44 := by
  rw [← text_eq_of_ofText h]
  exact length_text a

theorem abbreviation_append (a : Address) :
    a.text = a.abbreviation ++ String.ofList (a.text.toList.drop 8) := by
  rw [abbreviation, ← String.ofList_append, List.take_append_drop, String.ofList_toList]

/-- The abbreviation is eight bytes long. -/
theorem utf8ByteSize_abbreviation (a : Address) : a.abbreviation.utf8ByteSize = 8 := by
  have hchars : ∀ c ∈ a.text.toList.take 8, c ∈ Base58.alphabet := by
    intro c hc
    rw [toList_text] at hc
    exact Base58.mem_alphabet_of_mem_encode (List.mem_of_mem_take hc)
  have hlength : (a.text.toList.take 8).length = 8 := by
    have hle := (length_text a).1
    rw [← String.length_toList] at hle
    rw [List.length_take]
    omega
  rw [abbreviation, Base58.utf8ByteSize_ofList hchars, hlength]

/-- The texts of addresses have between 32 and 44 characters of the alphabet,
with as many leading ones as there are leading zero bytes. The eighth byte is
there and ends a character, and the bytes up to it are the abbreviation. A
shorter or longer text is not that of an address. -/
theorem texts_sized :
    (∀ a : Address, (32 ≤ a.text.length ∧ a.text.length ≤ 44)
      ∧ (∀ c ∈ a.text.toList, c ∈ Base58.alphabet)
      ∧ (a.text.toList.takeWhile (· == '1')).length = (a.bytes.takeWhile (· == 0)).length
      ∧ String.Pos.Raw.IsValid a.text ⟨8⟩
      ∧ a.abbreviation.toByteArray = a.text.toByteArray.extract 0 8)
    ∧ ∀ s : String, s.length < 32 ∨ 44 < s.length → ∃ fault, ofText s = .error fault := by
  constructor
  · intro a
    have hsize := utf8ByteSize_abbreviation a
    refine ⟨length_text a, ?_, ?_, ?_, ?_⟩
    · intro c hc
      rw [toList_text] at hc
      exact Base58.mem_alphabet_of_mem_encode hc
    · rw [toList_text, Base58.length_takeWhile_encode]
    · refine String.Pos.Raw.isValid_iff_exists_append.mpr ⟨_, _, abbreviation_append a, ?_⟩
      rw [String.Pos.Raw.ext_iff, String.byteIdx_rawEndPos, hsize]
    · conv_rhs => rw [abbreviation_append a, String.toByteArray_append]
      rw [ByteArray.extract_append_eq_left (hsize.symm.trans String.size_toByteArray.symm)]
  · intro s hlength
    cases hread : ofText s with
    | error fault => exact ⟨fault, rfl⟩
    | ok a =>
        have hbounds := length_of_ofText hread
        omega

end Address

namespace Sample

/-- The address of thirty-two zero bytes. -/
def blankAddress : Address :=
  ⟨List.replicate 32 0, rfl⟩

end Sample

namespace Address

/-- Zero bytes are written as leading ones, which are in the alphabet, and a
single one of them is no address. -/
theorem texts_sized_sample :
    (Sample.blankAddress.text.toList.takeWhile (· == '1')).length = 32
    ∧ '1' ∈ Sample.blankAddress.text.toList ∧ '1' ∈ Base58.alphabet
    ∧ "1".length < 32 ∧ ∃ fault, ofText "1" = .error fault := by
  obtain ⟨htexts, hothers⟩ := texts_sized
  obtain ⟨-, halphabet, hones, -, -⟩ := htexts Sample.blankAddress
  replace hones : (Sample.blankAddress.text.toList.takeWhile (· == '1')).length = 32 := hones
  have hshort : "1".length < 32 := by decide
  have hsome : 0 < (Sample.blankAddress.text.toList.takeWhile (· == '1')).length := by omega
  obtain ⟨c, hc⟩ := List.exists_mem_of_length_pos hsome
  obtain rfl : c = '1' := beq_iff_eq.mp (List.all_eq_true.mp List.all_takeWhile c hc)
  have hone := (List.takeWhile_sublist _).subset hc
  exact ⟨hones, hone, halphabet _ hone, hshort, hothers "1" (.inl hshort)⟩

end Address

end BountyBoard
