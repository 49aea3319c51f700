import BountyBoard.Refusal
import Mathlib.Data.List.Induction

/-!
# The texts of coins

A text can be read as a coin when it is an amount in ASCII digits with a
denomination behind it, and white space at the two ends at most
(`Coin.Writes`). Nothing marks where the amount ends, but a denomination
begins with a letter, so the digits in front are the amount and the rest is
the denomination (`ofText_eq_ok`).

Writing the coin that was read gives the text back without the zeros that
the amount does not need. These are the zeros in front of another digit: the
only digit of an amount stays even if it is a zero (`withoutZeros`).
-/

namespace BountyBoard

namespace Text

/-- A list falls apart where a property ends. -/
theorem span_append {p : Char → Bool} {front rest : List Char} (hfront : ∀ c ∈ front, p c = true)
    (hrest : ∀ c ∈ rest.head?, p c = false) :
    (front ++ rest).takeWhile p = front ∧ (front ++ rest).dropWhile p = rest := by
  rw [List.takeWhile_append_of_pos hfront, List.dropWhile_append_of_pos hfront]
  cases rest with
  | nil => simp
  | cons c cs => simp [hrest c rfl]

/-! ## White space at the ends -/

/-- What is left of a text is the part between the white space at its ends. -/
theorem trimList_append {before body after : List Char} (hbody : body ≠ [])
    (hbefore : ∀ c ∈ before, isBlank c = true) (hafter : ∀ c ∈ after, isBlank c = true)
    (hfirst : ∀ c ∈ body.head?, isBlank c = false)
    (hlast : ∀ c ∈ body.getLast?, isBlank c = false) :
    trimList (before ++ body ++ after) = body := by
  have hfront : (before ++ body ++ after).dropWhile isBlank = body ++ after := by
    obtain ⟨b, bs, rfl⟩ := List.exists_cons_of_ne_nil hbody
    rw [List.append_assoc]
    refine (span_append hbefore ?_).2
    exact hfirst
  have hback : (body ++ after).reverse.dropWhile isBlank = body.reverse := by
    rw [List.reverse_append]
    refine (span_append (fun c hc => hafter c (List.mem_reverse.mp hc)) fun c hc => hlast c ?_).2
    rwa [List.head?_reverse] at hc
  rw [trimList, hfront, hback, List.reverse_reverse]

/-- Every text is what is left of it with white space around it. -/
theorem exists_trimList_append (cs : List Char) :
    ∃ before after, cs = before ++ trimList cs ++ after
      ∧ (∀ c ∈ before, isBlank c = true) ∧ ∀ c ∈ after, isBlank c = true := by
  refine ⟨cs.takeWhile isBlank,
    ((cs.dropWhile isBlank).reverse.takeWhile isBlank).reverse, ?_, ?_, ?_⟩
  · rw [trimList, List.append_assoc, ← List.reverse_append, List.takeWhile_append_dropWhile,
      List.reverse_reverse, List.takeWhile_append_dropWhile]
  · exact List.all_eq_true.mp List.all_takeWhile
  · exact fun c hc => List.all_eq_true.mp List.all_takeWhile c (List.mem_reverse.mp hc)

/-! ## Digits -/

theorem toNat_of_isDigit {c : Char} (h : c.isDigit = true) : 48 ≤ c.toNat ∧ c.toNat ≤ 57 := by
  simpa [Char.isDigit, UInt32.le_iff_toNat_le] using h

theorem exists_digitChar {c : Char} (h : c.isDigit = true) : ∃ n < 10, Nat.digitChar n = c := by
  obtain ⟨hlow, hhigh⟩ := toNat_of_isDigit h
  refine ⟨c.toNat - 48, by omega, Char.toNat_inj.mp ?_⟩
  rw [Nat.toNat_digitChar_of_lt_ten (by omega)]
  omega

theorem digitsValue_append_digitChar (cs : List Char) {n : Nat} (hn : n < 10) :
    digitsValue (cs ++ [Nat.digitChar n]) = 10 * digitsValue cs + n := by
  rw [digitsValue, Nat.ofDigitChars_append, Nat.ofDigitChars_cons_digitChar_of_lt_ten hn,
    Nat.ofDigitChars_nil, digitsValue]

theorem digitsValue_zero_cons (cs : List Char) : digitsValue ('0' :: cs) = digitsValue cs := by
  rw [digitsValue, Nat.ofDigitChars_cons]
  rfl

/-- A single digit is the numeral of its number, and so are several that do
not begin with a zero. -/
theorem toDigits_digitsValue {d : Char} {ds : List Char} (hdigits : ∀ c ∈ d :: ds, c.isDigit = true)
    (hzero : d = '0' → ds = []) : Nat.toDigits 10 (digitsValue (d :: ds)) = d :: ds := by
  induction ds using List.reverseRecOn with
  | nil =>
      obtain ⟨n, hn, rfl⟩ := exists_digitChar (hdigits d List.mem_cons_self)
      have hvalue : digitsValue [Nat.digitChar n] = n := by
        rw [digitsValue, Nat.ofDigitChars_cons_digitChar_of_lt_ten hn, Nat.ofDigitChars_nil,
          Nat.mul_zero, Nat.zero_add]
      rw [hvalue, Nat.toDigits_of_lt_base hn]
  | append_singleton ds e ih =>
      have hd : d ≠ '0' := fun h => by simpa using hzero h
      have hfront : Nat.toDigits 10 (digitsValue (d :: ds)) = d :: ds :=
        ih (fun c hc => hdigits c (List.mem_append_left [e] hc)) fun h => absurd h hd
      have hpos : 0 < digitsValue (d :: ds) := by
        refine Nat.pos_of_ne_zero fun hvalue => hd ?_
        rw [hvalue, Nat.toDigits_zero] at hfront
        exact (List.cons.inj hfront).1.symm
      obtain ⟨n, hn, rfl⟩ := exists_digitChar (hdigits e (by simp))
      rw [← List.cons_append, digitsValue_append_digitChar _ hn,
        ← Nat.toDigits_append_toDigits (by decide) hpos hn, hfront, Nat.toDigits_of_lt_base hn]

/-- A text without its leading zeros, as far as another digit follows each of them. -/
def withoutZeros : List Char → List Char
  | [] => []
  | c :: rest => if c == '0' && rest.head?.any Char.isDigit then withoutZeros rest else c :: rest

/-- Of digits in front of something else, the numeral of their number is left. -/
theorem withoutZeros_append {ds rest : List Char} (hne : ds ≠ [])
    (hdigits : ∀ c ∈ ds, c.isDigit = true) (hrest : ∀ c ∈ rest.head?, c.isDigit = false) :
    withoutZeros (ds ++ rest) = Nat.toDigits 10 (digitsValue ds) ++ rest := by
  induction ds with
  | nil => exact absurd rfl hne
  | cons d ds ih =>
      cases ds with
      | nil =>
          have hstop : rest.head?.any Char.isDigit = false := by
            cases rest with
            | nil => rfl
            | cons c cs => simpa using hrest c rfl
          rw [toDigits_digitsValue hdigits fun _ => rfl]
          simp [withoutZeros, hstop]
      | cons e ds =>
          by_cases hd : d = '0'
          · have hrest' := ih (List.cons_ne_nil e ds) fun c hc => hdigits c (List.mem_cons_of_mem d hc)
            rw [hd, digitsValue_zero_cons, ← hrest']
            simp [withoutZeros, hdigits e]
          · rw [toDigits_digitsValue hdigits fun h => absurd h hd]
            simp [withoutZeros, hd]

end Text

theorem Amount.ofNat?_eq_some {n : Nat} {a : Amount} : ofNat? n = some a ↔ a.toNat = n := by
  constructor
  · intro h
    rw [ofNat?] at h
    split at h
    · cases h
      rfl
    · cases h
  · rintro rfl
    exact ofNat?_toNat a

namespace Coin

/-! ## Grammar -/

/-- An ASCII letter, and behind it ASCII letters, digits and slashes. -/
def IsDenom (cs : List Char) : Prop :=
  ∃ first rest, cs = first :: rest ∧ first.isAlpha = true
    ∧ ∀ c ∈ rest, c.isAlpha = true ∨ c.isDigit = true ∨ c = '/'

/-- The text is an amount in range, in digits, and a denomination behind
it, with white space around the two. -/
structure Writes (s : String) (amount denom : List Char) : Prop where
  text : ∃ before after, s.toList = before ++ (amount ++ denom) ++ after
    ∧ (∀ c ∈ before, Text.isBlank c = true) ∧ ∀ c ∈ after, Text.isBlank c = true
  nonempty : amount ≠ []
  digits : ∀ c ∈ amount, c.isDigit = true
  denom : IsDenom denom
  inRange : Text.digitsValue amount < Amount.size

theorem validDenomList_iff {cs : List Char} : validDenomList cs = true ↔ IsDenom cs := by
  cases cs with
  | nil => simp [validDenomList, IsDenom]
  | cons c rest => simp [validDenomList, IsDenom, Char.isAlphanum, or_assoc]

theorem validDenom_iff {denom : String} : validDenom denom = true ↔ IsDenom denom.toList :=
  validDenomList_iff

theorem toNat_of_isAlpha {c : Char} (h : c.isAlpha = true) :
    (65 ≤ c.toNat ∧ c.toNat ≤ 90) ∨ (97 ≤ c.toNat ∧ c.toNat ≤ 122) := by
  have hcase : (decide (c.val ≥ 65 ∧ c.val ≤ 90) || (c.val ≥ 97 && c.val ≤ 122)) = true := h
  simpa [UInt32.le_iff_toNat_le] using hcase

/-- None of the characters of a coin is white space. -/
theorem isBlank_eq_false {c : Char} (h : c.isAlpha = true ∨ c.isDigit = true ∨ c = '/') :
    Text.isBlank c = false := by
  have hrange : 33 ≤ c.toNat ∧ c.toNat ≤ 126 := by
    rcases h with h | h | rfl
    · have := toNat_of_isAlpha h
      omega
    · have := Text.toNat_of_isDigit h
      omega
    · decide
  simp only [Text.isBlank, Text.isBlankCode, Bool.or_eq_false_iff, Bool.and_eq_false_iff,
    decide_eq_false_iff_not, beq_eq_false_iff_ne]
  omega

/-- A denomination does not go on with the amount in front of it. -/
theorem IsDenom.isDigit_head {cs : List Char} (h : IsDenom cs) :
    ∀ c ∈ cs.head?, c.isDigit = false := by
  obtain ⟨first, rest, rfl, hfirst, -⟩ := h
  rintro c ⟨⟩
  refine Bool.eq_false_iff.mpr fun hdigit => ?_
  have hletter := toNat_of_isAlpha hfirst
  have hnumber := Text.toNat_of_isDigit hdigit
  omega

theorem IsDenom.isBlank_mem {cs : List Char} (h : IsDenom cs) :
    ∀ c ∈ cs, Text.isBlank c = false := by
  obtain ⟨first, rest, rfl, hfirst, hrest⟩ := h
  intro c hc
  rcases List.mem_cons.mp hc with rfl | hc
  · exact isBlank_eq_false (.inl hfirst)
  · exact isBlank_eq_false (hrest c hc)

/-! ## Reading and writing -/

variable {s : String} {amount denom : List Char}

/-- The amount and the denomination are what is left of the text. -/
theorem Writes.trimList_eq (h : Writes s amount denom) :
    Text.trimList s.toList = amount ++ denom := by
  obtain ⟨before, after, htext, hbefore, hafter⟩ := h.text
  have hcoin : ∀ c ∈ amount ++ denom, Text.isBlank c = false := by
    intro c hc
    rcases List.mem_append.mp hc with hc | hc
    · exact isBlank_eq_false (.inr (.inl (h.digits c hc)))
    · exact h.denom.isBlank_mem c hc
  rw [htext]
  exact Text.trimList_append (List.append_ne_nil_of_left_ne_nil h.nonempty denom) hbefore hafter
    (fun c hc => hcoin c (List.mem_of_mem_head? hc))
    (fun c hc => hcoin c (List.mem_of_mem_getLast? hc))

theorem ite_error_eq_ok {p : Prop} [Decidable p] {fault : Fault} {r : Except Fault Coin} {c : Coin} :
    (if p then .error fault else r) = .ok c ↔ ¬p ∧ r = .ok c := by
  by_cases h : p <;> simp [h]

/-- A text is read as the coin it writes, and no other text is read. -/
theorem ofText_eq_ok {c : Coin} :
    ofText s = .ok c
      ↔ ∃ amount denom, Writes s amount denom
        ∧ c.amount.toNat = Text.digitsValue amount ∧ c.denom = String.ofList denom := by
  constructor
  · intro h
    rw [ofText] at h
    simp only [ite_error_eq_ok] at h
    obtain ⟨-, hamount, hdenom, h⟩ := h
    split at h
    · cases h
    · rename_i n hn
      cases h
      have hvalue := Amount.ofNat?_eq_some.mp hn
      obtain ⟨before, after, htext, hbefore, hafter⟩ := Text.exists_trimList_append s.toList
      rw [← List.takeWhile_append_dropWhile (p := Char.isDigit) (l := Text.trimList s.toList)]
        at htext
      refine ⟨_, _, ⟨⟨before, after, htext, hbefore, hafter⟩, ?_, ?_, ?_, ?_⟩, hvalue, rfl⟩
      · exact fun hnil => hamount (List.isEmpty_iff.mpr hnil)
      · exact List.all_eq_true.mp List.all_takeWhile
      · exact validDenomList_iff.mp (by simpa using hdenom)
      · rw [← hvalue]
        exact n.isLt
  · rintro ⟨amount, denom, hwrites, hamount, hdenom⟩
    obtain ⟨htake, hdrop⟩ := Text.span_append hwrites.digits hwrites.denom.isDigit_head
    have hvalid : validDenomList denom = true := validDenomList_iff.mpr hwrites.denom
    have hne : denom ≠ [] := by
      rintro rfl
      cases hvalid
    rw [ofText, hwrites.trimList_eq]
    simp only [htake, hdrop, ite_error_eq_ok, hvalid, List.isEmpty_iff,
      Amount.ofNat?_eq_some.mpr hamount, ← hdenom]
    exact ⟨hne, hwrites.nonempty, by decide, trivial⟩

/-- Every fault shows what is left of the text, and then says what is wrong. -/
theorem message_of_ofText {fault : Fault} (h : ofText s = .error fault) :
    ∃ reason, (Refusal.badCoin fault).message
      = "invalid coin: " ++ Text.trim s ++ (": " ++ reason) := by
  rw [ofText] at h
  split at h
  · cases h
    exact ⟨"missing denom", rfl⟩
  split at h
  · cases h
    exact ⟨"missing amount", rfl⟩
  split at h
  · cases h
    refine ⟨"invalid denom "
      ++ Text.quoted (String.ofList ((Text.trimList s.toList).dropWhile Char.isDigit)), ?_⟩
    have hreason (shown : String) : ": " ++ ("invalid denom " ++ shown) = ": invalid denom " ++ shown :=
      String.append_assoc.symm
    rw [hreason]
    exact String.append_assoc
  split at h
  · cases h
    exact ⟨"number too large to fit in target type", rfl⟩
  · cases h

/-- The text of a coin is its amount and its denomination. -/
theorem writes_text {c : Coin} (h : IsDenom c.denom.toList) :
    Writes c.text (Nat.toDigits 10 c.amount.toNat) c.denom.toList where
  text := ⟨[], [], by simp [text, Text.natural], by simp, by simp⟩
  nonempty := Nat.toDigits_ne_nil
  digits := fun _ hc => Nat.isDigit_of_mem_toDigits (by decide) (by decide) hc
  denom := h
  inRange := by
    rw [Text.digitsValue_toDigits]
    exact c.amount.isLt

/-- A coin is written as it was read, without white space and needless zeros. -/
theorem text_eq {c : Coin} (hwrites : Writes s amount denom)
    (hamount : c.amount.toNat = Text.digitsValue amount) (hdenom : c.denom = String.ofList denom) :
    c.text = String.ofList (Text.withoutZeros (amount ++ denom)) := by
  rw [Text.withoutZeros_append hwrites.nonempty hwrites.digits hwrites.denom.isDigit_head,
    text, Text.natural, hamount, hdenom, String.ofList_append]

/-- A text is read as a coin exactly when it writes one: what is left
without the white space at its ends is an amount in range and a denomination.
Any other text is refused. The coin that was read is written like this, apart
from needless zeros in front, and every coin with a denomination is read back
from its text. -/
theorem texts_read :
    (∀ denom, validDenom denom = true ↔ IsDenom denom.toList)
    ∧ (∀ s amount denom, Writes s amount denom → Text.trim s = String.ofList (amount ++ denom))
    ∧ (∀ s c, ofText s = .ok c
      ↔ ∃ amount denom, Writes s amount denom
        ∧ c.amount.toNat = Text.digitsValue amount ∧ c.denom = String.ofList denom)
    ∧ (∀ s, (¬∃ amount denom, Writes s amount denom) ↔ ∃ fault, ofText s = .error fault)
    ∧ (∀ s fault, ofText s = .error fault →
      ∃ reason, (Refusal.badCoin fault).message
        = "invalid coin: " ++ Text.trim s ++ (": " ++ reason))
    ∧ (∀ s c, ofText s = .ok c →
      c.text = String.ofList (Text.withoutZeros (Text.trim s).toList))
    ∧ ∀ c, validDenom c.denom = true → ofText c.text = .ok c := by
  refine ⟨fun _ => validDenom_iff, ?_, fun _ _ => ofText_eq_ok, ?_, fun _ _ => message_of_ofText,
    ?_, ?_⟩
  · intro s amount denom h
    rw [Text.trim, h.trimList_eq]
  · intro s
    cases hread : ofText s with
    | error fault =>
        refine ⟨fun _ => ⟨fault, rfl⟩, fun _ ⟨amount, denom, hwrites⟩ => ?_⟩
        have hcoin : ofText s
            = .ok ⟨⟨Text.digitsValue amount, hwrites.inRange⟩, String.ofList denom⟩ :=
          ofText_eq_ok.mpr ⟨amount, denom, hwrites, rfl, rfl⟩
        cases hread.symm.trans hcoin
    | ok c =>
        obtain ⟨amount, denom, hwrites, -, -⟩ := ofText_eq_ok.mp hread
        exact ⟨fun h => absurd ⟨amount, denom, hwrites⟩ h, fun ⟨_, h⟩ => by cases h⟩
  · intro s c h
    obtain ⟨amount, denom, hwrites, hamount, hdenom⟩ := ofText_eq_ok.mp h
    rw [Text.trim, String.toList_ofList, hwrites.trimList_eq]
    exact text_eq hwrites hamount hdenom
  · intro c h
    refine ofText_eq_ok.mpr ⟨_, _, writes_text (validDenom_iff.mp h), ?_, ?_⟩
    · rw [Text.digitsValue_toDigits]
    · rw [String.ofList_toList]

/-- An amount with needless zeros, between an em space and a line break. -/
theorem texts_read_sample :
    ∃ c, ofText "\u2003007stake/2\n" = .ok c ∧ c.text = "7stake/2" ∧ ofText "7stake/2" = .ok c := by
  obtain ⟨hvalid, -, hread, -, -, hwritten, hback⟩ := texts_read
  have hdenom : IsDenom "stake/2".toList := (hvalid "stake/2").mp (by decide)
  have hwrites : Writes "\u2003007stake/2\n" "007".toList "stake/2".toList :=
    { text := ⟨['\u2003'], ['\n'], by decide, List.forall_mem_singleton.mpr (by decide),
        List.forall_mem_singleton.mpr (by decide)⟩
      nonempty := by decide
      digits := List.all_eq_true.mp (by decide)
      denom := hdenom
      inRange := by decide }
  have hcoin : ofText "\u2003007stake/2\n" = .ok ⟨⟨7, by decide⟩, "stake/2"⟩ :=
    (hread _ _).mpr ⟨_, _, hwrites, by decide, by decide⟩
  have htext : (⟨⟨7, by decide⟩, "stake/2"⟩ : Coin).text = "7stake/2" := by
    rw [hwritten _ _ hcoin]
    decide
  exact ⟨_, hcoin, htext, htext ▸ hback _ (by decide)⟩

end Coin

end BountyBoard
