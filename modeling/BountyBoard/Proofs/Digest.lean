import BountyBoard.Digest.Receipt
import Mathlib.Algebra.Ring.Int.Defs

/-!
# What the name of an approval stands for

The bytes that are hashed to name an approval are a text of any length between
two words, and nothing marks its ends. `Spells` gives this layout by the numbers
and the characters that the bytes stand for, and no bytes spell two approvals
(`Spells.unique`). The words have eight bytes each, so bytes that are cut in two
ways are cut at the same places. An id lies below `2 ^ 64` and is known from its
word, and so is a time, since the times are `2 ^ 64` numbers in a row. What lies
between the words is UTF-8, which is read back in one way only.

The hash is written in hexadecimal digits, from which its bytes are read back
(`Text.readHex_hexBytes`). So approvals with the same name are the same, or the
bytes that are hashed for them are a collision of the hash.
-/

namespace BountyBoard

/-! ## Words -/

/-- Eight bytes, the high one first, for a whole number modulo `2 ^ 64`. A
negative number is thus in two's complement. -/
structure IsWord (bytes : List UInt8) (n : Int) : Prop where
  length : bytes.length = 8
  value : (Radix.value 256 (bytes.map UInt8.toNat) : Int) = n % 2 ^ 64

variable {bytes : List UInt8}

theorem isWord_id (id : TaskId) : IsWord (bigEndian id) id.toNat where
  length := rfl
  value := by
    have hlt := id.toNat_lt
    rw [value_bigEndian]
    omega

theorem toNat_toUInt64 (t : Time) : (t.toUInt64.toNat : Int) = t.toInt % 2 ^ 64 := by
  have hlt := t.toBitVec.isLt
  rw [← Int64.toNat_toBitVec, ← Int64.toInt_toBitVec, BitVec.toInt_eq_toNat_cond]
  split <;> omega

theorem isWord_time (t : Time) : IsWord (bigEndian t.toUInt64) t.toInt where
  length := rfl
  value := by rw [value_bigEndian, toNat_toUInt64]

theorem IsWord.id_unique {v w : TaskId} (hv : IsWord bytes v.toNat) (hw : IsWord bytes w.toNat) :
    v = w := by
  have hrem := hv.value.symm.trans hw.value
  have hvlt := v.toNat_lt
  have hwlt := w.toNat_lt
  exact UInt64.toNat_inj.mp (by omega)

/-- Times with one remainder are `2 ^ 64` apart or the same. -/
theorem IsWord.time_unique {t u : Time} (ht : IsWord bytes t.toInt) (hu : IsWord bytes u.toInt) :
    t = u := by
  have hrem := ht.value.symm.trans hu.value
  have htlo := t.le_toInt
  have hthi := t.toInt_lt
  have hulo := u.le_toInt
  have huhi := u.toInt_lt
  exact Int64.toInt_inj.mp (by omega)

/-! ## UTF-8 -/

/-- Byte arrays are turned into lists from the front, with the bytes seen so
far in reverse. -/
theorem toList_loop_eq (array : ByteArray) (i : Nat) (seen : List UInt8) :
    ByteArray.toList.loop array i seen = seen.reverse ++ array.data.toList.drop i := by
  induction i, seen using ByteArray.toList.loop.induct array with
  | case1 i seen hlt ih =>
      have hi : i < array.data.size := hlt
      have hget : array.get! i = array.data.toList[i] := getElem!_pos array.data i hi
      rw [ByteArray.toList.loop, if_pos hlt, ih, List.reverse_cons, List.append_assoc,
        List.singleton_append, hget, List.getElem_cons_drop]
  | case2 i seen hge =>
      have hi : array.data.toList.length ≤ i := Nat.le_of_not_lt hge
      rw [ByteArray.toList.loop, if_neg hge, List.drop_eq_nil_of_le hi, List.append_nil]

theorem utf8_eq_flatMap (s : String) : utf8 s = s.toList.flatMap String.utf8EncodeChar := by
  rw [utf8, String.toUTF8_eq_toByteArray, ← String.utf8Encode_toList, ByteArray.toList,
    toList_loop_eq, List.utf8Encode, List.toList_data_toByteArray]
  rfl

theorem flatMap_utf8EncodeChar_inj {s t : String} :
    s.toList.flatMap String.utf8EncodeChar = t.toList.flatMap String.utf8EncodeChar ↔ s = t := by
  rw [← List.toByteArray_inj, ← List.utf8Encode, ← List.utf8Encode, String.utf8Encode_toList,
    String.utf8Encode_toList, String.toByteArray_inj]

/-! ## Spelled approvals -/

/-- The bytes are a word for the id, the characters of the approver in UTF-8
and a word for the time. -/
def Spells (bytes : List UInt8) (id : TaskId) (approver : String) (now : Time) : Prop :=
  ∃ front back, bytes = front ++ approver.toList.flatMap String.utf8EncodeChar ++ back
    ∧ IsWord front id.toNat ∧ IsWord back now.toInt

variable {id id' : TaskId} {approver approver' : String} {now now' : Time}

theorem spells_approvalBytes (id : TaskId) (approver : String) (now : Time) :
    Spells (approvalBytes id approver now) id approver now :=
  ⟨bigEndian id, bigEndian now.toUInt64, by rw [approvalBytes, utf8_eq_flatMap],
    isWord_id id, isWord_time now⟩

/-- A character of two bytes between the words, and a time before the epoch. -/
example : approvalBytes 1 "é" (-2)
    = [0, 0, 0, 0, 0, 0, 0, 1, 195, 169, 255, 255, 255, 255, 255, 255, 255, 254] := by
  cbv

/-- No bytes spell two approvals. -/
theorem Spells.unique (h : Spells bytes id approver now) (h' : Spells bytes id' approver' now') :
    id = id' ∧ approver = approver' ∧ now = now' := by
  obtain ⟨front, back, hcut, hid, hnow⟩ := h
  obtain ⟨front', back', hcut', hid', hnow'⟩ := h'
  -- The text is of unknown length, so the word behind it has to go first.
  obtain ⟨hahead, rfl⟩ :=
    List.append_inj' (hcut.symm.trans hcut') (hnow.length.trans hnow'.length.symm)
  obtain ⟨rfl, hchars⟩ := List.append_inj hahead (hid.length.trans hid'.length.symm)
  exact ⟨hid.id_unique hid', flatMap_utf8EncodeChar_inj.mp hchars, hnow.time_unique hnow'⟩

theorem approvalBytes_inj :
    approvalBytes id approver now = approvalBytes id' approver' now'
      ↔ id = id' ∧ approver = approver' ∧ now = now' := by
  constructor
  · intro h
    have hspells := spells_approvalBytes id approver now
    rw [h] at hspells
    exact hspells.unique (spells_approvalBytes id' approver' now')
  · rintro ⟨rfl, rfl, rfl⟩
    rfl

/-! ## Names -/

/-- Different bytes with one hash. -/
def Blake3.Collides (as bs : List UInt8) : Prop :=
  as ≠ bs ∧ hash as = hash bs

theorem approvalName_eq_iff :
    approvalName id approver now = approvalName id' approver' now'
      ↔ approvalBytes id approver now = approvalBytes id' approver' now'
        ∨ Blake3.Collides (approvalBytes id approver now) (approvalBytes id' approver' now') := by
  rw [approvalName, approvalName, Text.hexBytes_inj, Blake3.Collides]
  constructor
  · intro h
    by_cases hbytes : approvalBytes id approver now = approvalBytes id' approver' now'
    · exact .inl hbytes
    · exact .inr ⟨hbytes, h⟩
  · rintro (h | ⟨-, h⟩)
    · rw [h]
    · exact h

/-- The bytes that are hashed spell the approval, two approvals have the same
bytes only if they agree in the id, the approver and the time, and beyond that
their names are the same only if their bytes are a collision of the hash. -/
theorem approvals_told_apart (id id' : TaskId) (approver approver' : String) (now now' : Time) :
    Spells (approvalBytes id approver now) id approver now
    ∧ (approvalBytes id approver now = approvalBytes id' approver' now'
        ↔ id = id' ∧ approver = approver' ∧ now = now')
    ∧ (approvalName id approver now = approvalName id' approver' now'
        ↔ (id = id' ∧ approver = approver' ∧ now = now')
          ∨ Blake3.Collides (approvalBytes id approver now) (approvalBytes id' approver' now')) := by
  refine ⟨spells_approvalBytes id approver now, approvalBytes_inj, ?_⟩
  rw [approvalName_eq_iff, approvalBytes_inj]

end BountyBoard
