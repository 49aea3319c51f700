import BountyBoard.Address
import BountyBoard.Proofs.Radix

/-!
# One text for each address

Bytes are read back from their base-58 text (`decode_encode`), and a text
that can be read is the text of the bytes it was read as
(`encode_eq_of_decode`): both directions keep the number of leading zeros,
and a digit string is determined by its number apart from those. What can be
read are the texts over the alphabet (`decode_fails_iff`), and those among
them that come to thirty-two bytes are addresses (`ofText_fails_iff`).

An address therefore has one text, and no other one is read as it. Bringing
a text to its canonical form either fails or changes nothing
(`canonical_eq_ok`), so the board may compare principals by comparing texts.
-/

namespace BountyBoard

namespace Base58

/-! ## Characters -/

theorem lt_of_valueOf? {c : Char} {d : Nat} (h : valueOf? c = some d) : d < 58 := by
  obtain ⟨hlt, -, -⟩ := List.idxOf?_eq_some_iff.mp h
  exact hlt

theorem charOf_of_valueOf? {c : Char} {d : Nat} (h : valueOf? c = some d) : charOf d = c := by
  obtain ⟨hlt, heq, -⟩ := List.idxOf?_eq_some_iff.mp h
  rw [charOf, List.getD_eq_getElem?_getD, List.getElem?_eq_getElem hlt, heq]
  rfl

/-- The values that a text is read as are the digits whose characters make
up the text. -/
theorem of_readValues {start : Nat} {text : List Char} {ds : List Nat}
    (h : readValues start text = .ok ds) : ds.map charOf = text ∧ ∀ d ∈ ds, d < 58 := by
  induction text generalizing start ds with
  | nil =>
      cases h
      exact ⟨rfl, by simp⟩
  | cons c rest ih =>
      rw [readValues] at h
      split at h
      · cases h
      · rename_i d hd
        cases hrest : readValues (start + 1) rest with
        | error e =>
            rw [hrest] at h
            cases h
        | ok es =>
            rw [hrest] at h
            cases h
            obtain ⟨hmap, hlt⟩ := ih hrest
            refine ⟨by rw [List.map_cons, hmap, charOf_of_valueOf? hd], ?_⟩
            intro e he
            rcases List.mem_cons.mp he with rfl | he
            · exact lt_of_valueOf? hd
            · exact hlt e he

theorem nodup_alphabet : alphabet.Nodup := by decide

theorem charOf_eq_getElem {d : Nat} (hd : d < alphabet.length) : charOf d = alphabet[d] := by
  rw [charOf, List.getD_eq_getElem?_getD, List.getElem?_eq_getElem hd]
  rfl

/-- A value is read from its own character, since no character has two values. -/
theorem valueOf?_charOf {d : Nat} (hd : d < alphabet.length) : valueOf? (charOf d) = some d := by
  have hearlier : ∀ j (hj : j < d), alphabet[j] ≠ alphabet[d] := fun j hj =>
    List.pairwise_iff_getElem.mp nodup_alphabet j d (Nat.lt_trans hj hd) hd hj
  rw [valueOf?, charOf_eq_getElem hd]
  exact List.idxOf?_eq_some_iff.mpr ⟨hd, rfl, hearlier⟩

theorem readValues_map_charOf {ds : List Nat} (h : ∀ d ∈ ds, d < 58) (start : Nat) :
    readValues start (ds.map charOf) = .ok ds := by
  induction ds generalizing start with
  | nil => rfl
  | cons d rest ih =>
      have hd : valueOf? (charOf d) = some d := valueOf?_charOf (h d List.mem_cons_self)
      have hrest := ih (fun e he => h e (List.mem_cons_of_mem d he)) (start + 1)
      rw [List.map_cons, readValues, hd]
      simp only [hrest]
      rfl

/-- A text has values exactly when all its characters are in the alphabet. -/
theorem exists_readValues_iff {start : Nat} {text : List Char} :
    (∃ ds, readValues start text = .ok ds) ↔ ∀ c ∈ text, c ∈ alphabet := by
  constructor
  · rintro ⟨ds, h⟩ c hc
    obtain ⟨rfl, hlt⟩ := of_readValues h
    obtain ⟨d, hd, rfl⟩ := List.mem_map.mp hc
    rw [charOf_eq_getElem (hlt d hd)]
    exact List.getElem_mem _
  · intro h
    have htext : (text.map alphabet.idxOf).map charOf = text := by
      rw [List.map_map]
      conv_rhs => rw [← List.map_id text]
      refine List.map_congr_left fun c hc => ?_
      have hlt : alphabet.idxOf c < alphabet.length := List.idxOf_lt_length_iff.mpr (h c hc)
      exact (charOf_eq_getElem hlt).trans (List.getElem_idxOf hlt)
    have hlt : ∀ d ∈ text.map alphabet.idxOf, d < 58 := by
      intro d hd
      obtain ⟨c, hc, rfl⟩ := List.mem_map.mp hd
      exact List.idxOf_lt_length_iff.mpr (h c hc)
    rw [← htext]
    exact ⟨_, readValues_map_charOf hlt start⟩

/-! ## Whole texts -/

theorem map_toNat_map_ofNat {ds : List Nat} (h : ∀ d ∈ ds, d < 256) :
    (ds.map UInt8.ofNat).map UInt8.toNat = ds := by
  rw [List.map_map]
  conv_rhs => rw [← List.map_id ds]
  refine List.map_congr_left fun d hd => ?_
  exact UInt8.toNat_ofNat_of_lt' (h d hd)

theorem map_ofNat_map_toNat (bytes : List UInt8) :
    (bytes.map UInt8.toNat).map UInt8.ofNat = bytes := by
  rw [List.map_map]
  conv_rhs => rw [← List.map_id bytes]
  exact List.map_congr_left fun b _ => UInt8.ofNat_toNat

theorem decode_nil : decode [] = .ok [] := by
  have hconvert : Radix.convert 58 256 [] = [] := Radix.digits_zero 256
  rw [decode, readValues, Except.map, hconvert, List.map_nil]

/-- Bytes are read back from their text. -/
theorem decode_encode (bytes : List UInt8) : decode (encode bytes) = .ok bytes := by
  have hvalues : ∀ d ∈ Radix.convert 256 58 (bytes.map UInt8.toNat), d < 58 := fun d hd =>
    Radix.lt_of_mem_convert (by decide) hd
  have hbytes : ∀ d ∈ bytes.map UInt8.toNat, d < 256 := fun _ => Radix.lt_of_mem_map_toNat
  have hread : readValues 0 (encode bytes) = .ok (Radix.convert 256 58 (bytes.map UInt8.toNat)) :=
    readValues_map_charOf hvalues 0
  rw [decode, hread, Except.map, Radix.convert_convert (by decide) (by decide) hbytes,
    map_ofNat_map_toNat]

/-- A text that can be read is the text of the bytes it was read as. -/
theorem encode_eq_of_decode {text : List Char} {bytes : List UInt8}
    (h : decode text = .ok bytes) : encode bytes = text := by
  cases hread : readValues 0 text with
  | error e =>
      rw [decode, hread] at h
      cases h
  | ok ds =>
      rw [decode, hread] at h
      cases h
      obtain ⟨hmap, hlt⟩ := of_readValues hread
      rw [encode, map_toNat_map_ofNat fun d hd => Radix.lt_of_mem_convert (by decide) hd,
        Radix.convert_convert (by decide) (by decide) hlt, hmap]

/-- Only characters outside the alphabet keep a text from being read. -/
theorem decode_fails_iff {text : List Char} :
    (∃ e, decode text = .error e) ↔ ∃ c ∈ text, c ∉ alphabet := by
  have hreadable : (∃ ds, readValues 0 text = .ok ds) ↔ ∀ c ∈ text, c ∈ alphabet :=
    exists_readValues_iff
  rw [decode]
  cases hread : readValues 0 text with
  | error e =>
      have hout : ¬∀ c ∈ text, c ∈ alphabet := fun h => by
        obtain ⟨ds, hds⟩ := hreadable.mpr h
        cases hread.symm.trans hds
      simpa [Except.map] using hout
  | ok ds =>
      have hin := hreadable.mp ⟨ds, hread⟩
      simpa [Except.map] using hin

end Base58

namespace Address

/-- The text of some address. -/
def IsText (s : String) : Prop :=
  ∃ a, ofText s = .ok a

instance (s : String) : Decidable (IsText s) :=
  match h : ofText s with
  | .ok a => .isTrue ⟨a, h⟩
  | .error _ => .isFalse fun ⟨_, ha⟩ => nomatch h.symm.trans ha

theorem ofText_eq_ok {s : String} {a : Address} :
    ofText s = .ok a ↔ s ≠ "" ∧ Base58.decode s.toList = .ok a.bytes := by
  rw [ofText]
  split
  · rename_i hempty
    exact ⟨nofun, fun h => absurd (String.isEmpty_iff.mp hempty) h.1⟩
  · rename_i hne
    have hne : s ≠ "" := fun h => hne (String.isEmpty_iff.mpr h)
    cases hdecode : Base58.decode s.toList with
    | error e =>
        obtain ⟨index, c⟩ := e
        refine ⟨fun h => ?_, nofun⟩
        simp only at h
        split at h <;> cases h
    | ok bytes =>
        simp only
        split
        · rename_i hlength
          refine ⟨fun h => ?_, fun h => ?_⟩
          · cases h
            exact ⟨hne, rfl⟩
          · cases h.2
            rfl
        · rename_i hlength
          refine ⟨nofun, fun h => ?_⟩
          cases h.2
          exact absurd a.length_bytes hlength

/-- A text that stands for an address is the text of that address. -/
theorem text_eq_of_ofText {s : String} {a : Address} (h : ofText s = .ok a) : a.text = s := by
  obtain ⟨-, hdecode⟩ := ofText_eq_ok.mp h
  rw [text, Base58.encode_eq_of_decode hdecode, String.ofList_toList]

/-- An address is read back from its text. -/
theorem ofText_text (a : Address) : ofText a.text = .ok a := by
  have hdecode : Base58.decode a.text.toList = .ok a.bytes := by
    rw [text, String.toList_ofList, Base58.decode_encode]
  refine ofText_eq_ok.mpr ⟨fun hempty => ?_, hdecode⟩
  -- the empty text is read as no bytes
  have hbytes : a.bytes = [] := by
    rw [hempty] at hdecode
    exact Except.ok.inj (hdecode.symm.trans Base58.decode_nil)
  have hlength := a.length_bytes
  rw [hbytes] at hlength
  cases hlength

/-- What is no address, and why. -/
theorem ofText_fails_iff {s : String} :
    (∃ fault, ofText s = .error fault)
      ↔ s = "" ∨ (∃ c ∈ s.toList, c ∉ Base58.alphabet)
        ∨ ∃ bytes, Base58.decode s.toList = .ok bytes ∧ bytes.length ≠ 32 := by
  have hfails : (∃ e, Base58.decode s.toList = .error e) ↔ ∃ c ∈ s.toList, c ∉ Base58.alphabet :=
    Base58.decode_fails_iff
  constructor
  · rintro ⟨fault, hfault⟩
    by_cases hempty : s = ""
    · exact .inl hempty
    · cases hdecode : Base58.decode s.toList with
      | error e => exact .inr (.inl (hfails.mp ⟨e, hdecode⟩))
      | ok bytes =>
          refine .inr (.inr ⟨bytes, rfl, fun hlength => ?_⟩)
          have hread : ofText s = .ok ⟨bytes, hlength⟩ := ofText_eq_ok.mpr ⟨hempty, hdecode⟩
          cases hfault.symm.trans hread
  · intro h
    cases hread : ofText s with
    | error fault => exact ⟨fault, rfl⟩
    | ok a =>
        obtain ⟨hne, hdecode⟩ := ofText_eq_ok.mp hread
        rcases h with hempty | hout | ⟨bytes, hbytes, hlength⟩
        · exact absurd hempty hne
        · obtain ⟨e, he⟩ := hfails.mpr hout
          cases hdecode.symm.trans he
        · obtain rfl := Except.ok.inj (hdecode.symm.trans hbytes)
          exact absurd a.length_bytes hlength

/-- The canonical form of a text is the text itself, if it is one of an address. -/
theorem canonical_eq_ok {s r : String} : canonical s = .ok r ↔ IsText s ∧ r = s := by
  constructor
  · intro h
    cases hread : ofText s with
    | error fault =>
        rw [canonical, hread] at h
        cases h
    | ok a =>
        rw [canonical, hread] at h
        cases h
        exact ⟨⟨a, hread⟩, text_eq_of_ofText hread⟩
  · rintro ⟨⟨a, hread⟩, rfl⟩
    rw [canonical, hread]
    exact congrArg Except.ok (text_eq_of_ofText hread)

/-- Addresses and the texts that are read as addresses correspond one to
one. The others are empty, or have a character outside the alphabet, or come
to another number of bytes. So the canonical form of a text is the text
itself or there is none, and texts of addresses are the same exactly when
the principals are. -/
theorem texts_one_to_one :
    (∀ a : Address, ofText a.text = .ok a)
    ∧ (∀ (s : String) (a : Address), ofText s = .ok a → a.text = s)
    ∧ (∀ s : String, (∃ fault, ofText s = .error fault)
      ↔ s = "" ∨ (∃ c ∈ s.toList, c ∉ Base58.alphabet)
        ∨ ∃ bytes, Base58.decode s.toList = .ok bytes ∧ bytes.length ≠ 32)
    ∧ (∀ s : String, (∃ fault, canonical s = .error fault) ∨ canonical s = .ok s)
    ∧ ∀ (s s' : String) (a a' : Address), ofText s = .ok a → ofText s' = .ok a' →
      (s = s' ↔ a = a') := by
  refine ⟨ofText_text, fun _ _ => text_eq_of_ofText, fun _ => ofText_fails_iff, ?_, ?_⟩
  · intro s
    cases hcanonical : canonical s with
    | error fault => exact .inl ⟨fault, rfl⟩
    | ok r =>
        obtain ⟨-, rfl⟩ := canonical_eq_ok.mp hcanonical
        exact .inr rfl
  · intro s s' a a' hs hs'
    constructor
    · rintro rfl
      exact Except.ok.inj (hs.symm.trans hs')
    · rintro rfl
      exact (text_eq_of_ofText hs).symm.trans (text_eq_of_ofText hs')

/-- Two addresses with leading zeros, which differ in the last byte. -/
theorem texts_one_to_one_sample :
    ∃ a a', ofText "11111111111111111111111111111111" = .ok a
      ∧ ofText "11111111111111111111111111111112" = .ok a'
      ∧ a.text = "11111111111111111111111111111111" ∧ a ≠ a' := by
  obtain ⟨a, ha⟩ : IsText "11111111111111111111111111111111" := by decide +kernel
  obtain ⟨a', ha'⟩ : IsText "11111111111111111111111111111112" := by decide +kernel
  obtain ⟨-, htext, -, -, hsame⟩ := texts_one_to_one
  refine ⟨a, a', ha, ha', htext _ a ha, fun heq => ?_⟩
  exact absurd ((hsame _ _ a a' ha ha').mpr heq) (by decide)

end Address

end BountyBoard
