import BountyBoard.Json.Render
import BountyBoard.Json.Token

/-!
# The tokens of written JSON

Written JSON falls apart into the tokens of the value it was written from
(`tokens_render`). The tokens of a value are a view of their own,
`valueTokens`, without layout and without escapes.

What a piece of text falls apart into can depend on what stands behind it: a
number goes on for as long as there are digits. So `Lexes` speaks of a piece
of text in front of another, and pieces are put together from left to right
(`Lexes.append`). Behind a written value stands a comma, a line break or
nothing, and each of them ends a number (`Stops`).
-/

namespace BountyBoard.Json

/-! ## Strings -/

theorem readPieces_short {c e : Char} (h : escapeChar? e = some c) (hu : e ≠ 'u')
    (cs : List Char) :
    readPieces ('\\' :: e :: cs)
      = (readPieces cs).map fun (pieces, rest) => (.char c :: pieces, rest) := by
  rw [readPieces]
  · rw [h]
    cases readPieces cs <;> rfl
  · exact fun _ _ _ _ _ he _ => hu he

theorem unitOfDigits_control :
    ∀ n < 0x20,
      unitOfDigits '0' '0' (Nat.digitChar (n / 16)) (Nat.digitChar (n % 16)) = some n := by
  decide

theorem readPieces_unitEscape {c : Char} (h : c.toNat < 0x20) (cs : List Char) :
    readPieces (unitEscape c ++ cs)
      = (readPieces cs).map fun (pieces, rest) => (.unit c.toNat :: pieces, rest) := by
  show readPieces ('\\' :: 'u' :: '0' :: '0' :: _ :: _ :: cs) = _
  rw [readPieces, unitOfDigits_control c.toNat h]
  cases readPieces cs <;> rfl

theorem readPieces_plain {c : Char} (hquote : c ≠ '"') (hback : c ≠ '\\') (h : ¬c.toNat < 0x20)
    (cs : List Char) :
    readPieces (c :: cs)
      = (readPieces cs).map fun (pieces, rest) => (.char c :: pieces, rest) := by
  rw [readPieces]
  · rw [if_neg (by simp [hback, h])]
    cases readPieces cs <;> rfl
  · simp [hquote]
  · simp [hback]
  · simp [hback]

/-- A code unit that is no half of a surrogate pair is a character by itself. -/
theorem joinPieces_unit {n : Nat} (h : n < 0xD800) (pieces : List Piece) :
    joinPieces (.unit n :: pieces) = (joinPieces pieces).map (Char.ofNat n :: ·) := by
  cases pieces with
  | nil => simp [joinPieces, h]
  | cons piece rest => cases piece <;> simp [joinPieces, h]

/-- A character is written behind a backslash, as its code unit, or as it stands. -/
theorem escape_cases (c : Char) :
    (∃ e, escape c = ['\\', e] ∧ escapeChar? e = some c ∧ e ≠ 'u')
      ∨ (escape c = unitEscape c ∧ c.toNat < 0x20)
      ∨ (escape c = [c] ∧ c ≠ '"' ∧ c ≠ '\\' ∧ ¬c.toNat < 0x20) := by
  fun_cases escape c with
  | case1 h => exact .inl ⟨'"', rfl, by rw [h]; rfl, by decide⟩
  | case2 _ h => exact .inl ⟨'\\', rfl, by rw [h]; rfl, by decide⟩
  | case3 _ _ h => exact .inl ⟨'b', rfl, by rw [h]; rfl, by decide⟩
  | case4 _ _ _ h => exact .inl ⟨'t', rfl, by rw [h]; rfl, by decide⟩
  | case5 _ _ _ _ h => exact .inl ⟨'n', rfl, by rw [h]; rfl, by decide⟩
  | case6 _ _ _ _ _ h => exact .inl ⟨'f', rfl, by rw [h]; rfl, by decide⟩
  | case7 _ _ _ _ _ _ h => exact .inl ⟨'r', rfl, by rw [h]; rfl, by decide⟩
  | case8 _ _ _ _ _ _ _ hcontrol => exact .inr (.inl ⟨rfl, hcontrol⟩)
  | case9 hquote hback _ _ _ _ _ hcontrol => exact .inr (.inr ⟨rfl, hquote, hback, hcontrol⟩)

/-- A written character is read as one part of a string, whatever stands
behind it, and that part stands for the character. -/
theorem readPieces_escape (c : Char) :
    ∃ piece, (∀ cs, readPieces (escape c ++ cs)
        = (readPieces cs).map fun (pieces, rest) => (piece :: pieces, rest))
      ∧ ∀ pieces, joinPieces (piece :: pieces) = (joinPieces pieces).map (c :: ·) := by
  rcases escape_cases c with ⟨e, heq, he, hu⟩ | ⟨heq, hcontrol⟩ | ⟨heq, hquote, hback, hcontrol⟩
  · rw [heq]
    exact ⟨.char c, readPieces_short he hu, fun _ => rfl⟩
  · rw [heq]
    refine ⟨.unit c.toNat, readPieces_unitEscape hcontrol, fun pieces => ?_⟩
    rw [joinPieces_unit (by omega), Char.ofNat_toNat]
  · rw [heq]
    exact ⟨.char c, readPieces_plain hquote hback hcontrol, fun _ => rfl⟩

theorem readPieces_flatMap_escape (cs rest : List Char) :
    ∃ pieces, readPieces (cs.flatMap escape ++ '"' :: rest) = some (pieces, rest)
      ∧ joinPieces pieces = some cs := by
  induction cs with
  | nil => exact ⟨[], rfl, rfl⟩
  | cons c cs ih =>
      obtain ⟨pieces, hread, hjoin⟩ := ih
      obtain ⟨piece, hpiece, hchar⟩ := readPieces_escape c
      refine ⟨piece :: pieces, ?_, by rw [hchar, hjoin]; rfl⟩
      rw [List.flatMap_cons, List.append_assoc, hpiece, hread]
      rfl

/-- A written string is read as that string. -/
theorem readString_escape (s : String) (rest : List Char) :
    readString (s.toList.flatMap escape ++ '"' :: rest) = some (.string s, rest) := by
  obtain ⟨pieces, hread, hjoin⟩ := readPieces_flatMap_escape s.toList rest
  rw [readString, hread]
  simp [hjoin]

/-! ## Numbers -/

/-- What stands behind a written value: a comma, a line break or nothing. -/
def Stops (rest : List Char) : Prop :=
  ∀ c ∈ rest.head?, c = ',' ∨ c = '\n'

theorem Stops.takeWhile_isDigit {rest : List Char} (h : Stops rest) :
    rest.takeWhile Char.isDigit = [] := by
  cases rest with
  | nil => rfl
  | cons c cs => rcases h c rfl with rfl | rfl <;> rfl

theorem Stops.dropWhile_isDigit {rest : List Char} (h : Stops rest) :
    rest.dropWhile Char.isDigit = rest := by
  cases rest with
  | nil => rfl
  | cons c cs => rcases h c rfl with rfl | rfl <;> rfl

theorem digitChar_ne_zero : ∀ n < 10, n ≠ 0 → Nat.digitChar n ≠ '0' := by
  decide

/-- A positive number is not written with a leading zero. -/
theorem head?_toDigits {n : Nat} (hn : n ≠ 0) : (Nat.toDigits 10 n).head? ≠ some '0' := by
  induction n using Nat.strongRecOn with
  | ind n ih =>
      rcases Nat.lt_or_ge n 10 with hlt | hge
      · rw [Nat.toDigits_of_lt_base hlt, List.head?_cons]
        exact fun h => digitChar_ne_zero n hlt hn (Option.some.inj h)
      · rw [Nat.toDigits_of_base_le (by decide) hge, List.head?_append]
        cases hhead : (Nat.toDigits 10 (n / 10)).head? with
        | none => exact absurd (List.head?_eq_none_iff.mp hhead) Nat.toDigits_ne_nil
        | some c =>
            have hne := ih (n / 10) (by omega) (by omega)
            rwa [hhead] at hne

/-- Behind a written value no fraction and no exponent goes on. -/
theorem Stops.number {rest : List Char} (h : Stops rest) :
    (∀ after, rest ≠ '.' :: after) ∧ hasExponent rest = false := by
  cases rest with
  | nil => exact ⟨fun _ => by simp, rfl⟩
  | cons c cs => rcases h c rfl with rfl | rfl <;> exact ⟨fun _ => by simp, rfl⟩

theorem readUnsigned_toDigits (negative : Bool) (n : Nat) (h : negative = true → n ≠ 0)
    {rest : List Char} (hrest : Stops rest) :
    readUnsigned negative (Nat.toDigits 10 n ++ rest)
      = some (.number (if negative then -(n : Int) else n), rest) := by
  have hdigit : ∀ c ∈ Nat.toDigits 10 n, c.isDigit = true := fun c hc =>
    Nat.isDigit_of_mem_toDigits (by decide) (by decide) hc
  have hzero : ¬((Nat.toDigits 10 n).isEmpty = true
      ∨ ((Nat.toDigits 10 n).head? = some '0' ∧ (Nat.toDigits 10 n).length ≠ 1)) := by
    rintro (hempty | ⟨hhead, hlength⟩)
    · exact Nat.toDigits_ne_nil (List.isEmpty_iff.mp hempty)
    · by_cases hn : n = 0
      · exact hlength (by rw [hn]; rfl)
      · exact head?_toDigits hn hhead
  have hneg : ¬(negative = true ∧ n = 0) := fun hboth => h hboth.1 hboth.2
  obtain ⟨hfraction, hexponent⟩ := hrest.number
  rw [readUnsigned, List.takeWhile_append_of_pos hdigit, List.dropWhile_append_of_pos hdigit,
    hrest.takeWhile_isDigit, hrest.dropWhile_isDigit, List.append_nil]
  simp only [if_neg hzero, if_neg hneg, hexponent, Text.digitsValue_toDigits, Bool.false_eq_true,
    if_false]

theorem isSpace_digit {c : Char} (hc : c.isDigit = true) : isSpace c = false := by
  rw [Bool.eq_false_iff]
  intro h
  simp only [isSpace, Bool.or_eq_true, beq_iff_eq] at h
  rcases h with ((rfl | rfl) | rfl) | rfl <;> exact absurd hc (by decide)

/-- A digit begins a number and no other token. -/
theorem readToken_digit {c : Char} (hc : c.isDigit = true) (rest : List Char) :
    readToken c rest = readUnsigned false (c :: rest) := by
  unfold readToken
  split <;> first | rfl | (exact absurd hc (by decide))

/-- A written number is read as that number. -/
theorem readToken_integer (n : Int) {rest : List Char} (hrest : Stops rest) :
    ∃ c cs, (Text.integer n).toList = c :: cs ∧ isSpace c = false
      ∧ readToken c (cs ++ rest) = some (.number n, rest) := by
  cases n with
  | ofNat n =>
      obtain ⟨c, cs, heq⟩ := List.exists_cons_of_ne_nil (Nat.toDigits_ne_nil (n := n) (b := 10))
      have hc : c.isDigit = true :=
        Nat.isDigit_of_mem_toDigits (by decide) (by decide) (heq ▸ List.mem_cons_self)
      refine ⟨c, cs, ?_, ?_, ?_⟩
      · rw [Text.integer, Text.natural, String.toList_ofList, heq]
      · exact isSpace_digit hc
      · have hread := readUnsigned_toDigits false n (by simp) hrest
        rw [heq] at hread
        rw [readToken_digit hc]
        exact hread
  | negSucc n =>
      refine ⟨'-', Nat.toDigits 10 (n + 1), ?_, rfl, ?_⟩
      · simp [Text.integer, Text.natural]
      · have hread := readUnsigned_toDigits true (n + 1) (by simp) hrest
        exact hread

/-! ## Pieces of text -/

/-- The piece of text `cs` in front of `rest` falls apart into the tokens `ts`. -/
def Lexes (cs : List Char) (ts : List Token) (rest : List Char) : Prop :=
  ∀ fuel before, (cs ++ rest).length ≤ fuel → ∃ left, rest.length ≤ left
    ∧ readTokens fuel before (cs ++ rest) = readTokens left (ts.reverse ++ before) rest

theorem lexes_nil (rest : List Char) : Lexes [] [] rest :=
  fun fuel _ hfuel => ⟨fuel, hfuel, rfl⟩

theorem Lexes.append {cs cs' rest : List Char} {ts ts' : List Token}
    (h : Lexes cs ts (cs' ++ rest)) (h' : Lexes cs' ts' rest) :
    Lexes (cs ++ cs') (ts ++ ts') rest := by
  intro fuel before hfuel
  rw [List.append_assoc] at hfuel ⊢
  obtain ⟨left, hleft, hread⟩ := h fuel before hfuel
  obtain ⟨left', hleft', hread'⟩ := h' left (ts.reverse ++ before) hleft
  refine ⟨left', hleft', ?_⟩
  rw [hread, hread', List.reverse_append, List.append_assoc]

theorem Lexes.space {c : Char} (hc : isSpace c = true) {cs rest : List Char} {ts : List Token}
    (h : Lexes cs ts rest) : Lexes (c :: cs) ts rest := by
  intro fuel before hfuel
  obtain ⟨left, rfl⟩ : ∃ left, fuel = left + 1 := ⟨fuel - 1, by simp at hfuel; omega⟩
  obtain ⟨left', hleft, hread⟩ := h left before (by simp at hfuel ⊢; omega)
  refine ⟨left', hleft, ?_⟩
  rw [List.cons_append, readTokens, if_pos hc, hread]

/-- One token by itself. -/
theorem lexes_token {c : Char} {cs rest : List Char} {t : Token} (hc : isSpace c = false)
    (h : readToken c (cs ++ rest) = some (t, rest)) : Lexes (c :: cs) [t] rest := by
  intro fuel before hfuel
  obtain ⟨left, rfl⟩ : ∃ left, fuel = left + 1 := ⟨fuel - 1, by simp at hfuel; omega⟩
  refine ⟨left, by simp at hfuel; omega, ?_⟩
  rw [List.cons_append, readTokens, if_neg (by rw [hc]; decide), h]
  rfl

/-- A punctuation mark is a token, whatever stands behind it. -/
theorem Lexes.mark {c : Char} {t : Token} (hc : isSpace c = false)
    (ht : ∀ cs, readToken c cs = some (t, cs)) {cs rest : List Char} {ts : List Token}
    (h : Lexes cs ts rest) : Lexes (c :: cs) (t :: ts) rest := by
  have hmark : Lexes [c] [t] (cs ++ rest) := lexes_token hc (ht _)
  exact hmark.append h

theorem Lexes.newline (level : Nat) {cs rest : List Char} {ts : List Token}
    (h : Lexes cs ts rest) : Lexes (newline level ++ cs) ts rest := by
  have hspaces : ∀ n, Lexes (List.replicate n ' ' ++ cs) ts rest := fun n => by
    induction n with
    | zero => exact h
    | succ n ih => exact ih.space rfl
  exact (hspaces (2 * level)).space rfl

theorem Lexes.string (s : String) {cs rest : List Char} {ts : List Token}
    (h : Lexes cs ts rest) : Lexes (renderString s ++ cs) (.string s :: ts) rest := by
  have hstring : Lexes (renderString s) [.string s] (cs ++ rest) := by
    refine lexes_token rfl ?_
    show readString ((s.toList.flatMap escape ++ ['"']) ++ (cs ++ rest)) = _
    rw [List.append_assoc]
    exact readString_escape s (cs ++ rest)
  exact hstring.append h

theorem lexes_integer (n : Int) {rest : List Char} (hrest : Stops rest) :
    Lexes (Text.integer n).toList [.number n] rest := by
  obtain ⟨c, cs, heq, hc, hread⟩ := readToken_integer n hrest
  rw [heq]
  exact lexes_token hc hread

/-- A whole text that falls apart into tokens is read as those tokens. -/
theorem Lexes.tokens_eq {cs : List Char} {ts : List Token} (h : Lexes cs ts []) :
    tokens cs = some ts := by
  obtain ⟨left, -, hread⟩ := h cs.length [] (by simp)
  rw [List.append_nil] at hread
  rw [tokens, hread]
  cases left <;> simp [readTokens]

/-! ## Values -/

mutual

/-- The tokens of a value, in the order of its parts. -/
def valueTokens : Json → List Token
  | null => [.null]
  | bool b => [.bool b]
  | number n => [.number n]
  | string s => [.string s]
  | array [] => [.openBracket, .closeBracket]
  | array (j :: rest) => .openBracket :: (valueTokens j ++ (itemTokens rest ++ [.closeBracket]))
  | object [] => [.openBrace, .closeBrace]
  | object ((name, j) :: rest) =>
      .openBrace :: .string name :: .colon
        :: (valueTokens j ++ (memberTokens rest ++ [.closeBrace]))
  | other => [.null]

/-- The tokens of the items after the first one. -/
def itemTokens : List Json → List Token
  | [] => []
  | j :: rest => .comma :: (valueTokens j ++ itemTokens rest)

def memberTokens : List (String × Json) → List Token
  | [] => []
  | (name, j) :: rest =>
      .comma :: .string name :: .colon :: (valueTokens j ++ memberTokens rest)

end

/-- A value that is written as it is: no part of it is of the kind that no
record has a use for. -/
inductive Whole : Json → Prop
  | null : Whole null
  | bool (b : Bool) : Whole (bool b)
  | number (n : Int) : Whole (number n)
  | string (s : String) : Whole (string s)
  | array {items : List Json} (items_whole : ∀ j ∈ items, Whole j) : Whole (array items)
  | object {members : List (String × Json)} (members_whole : ∀ m ∈ members, Whole m.2) :
      Whole (object members)

theorem stops_nil : Stops [] := fun _ h => by cases h

theorem stops_comma (cs : List Char) : Stops (',' :: cs) := fun _ h => by
  cases h
  exact .inl rfl

theorem stops_newline (level : Nat) (cs rest : List Char) : Stops (newline level ++ cs ++ rest) :=
  fun _ h => by
    cases h
    exact .inr rfl

/-- The value falls apart into its tokens, wherever it is written. -/
def LexesAnywhere (j : Json) : Prop :=
  ∀ level rest, Stops rest → Lexes (renderAt level j) (valueTokens j) rest

/-- The items after the first one, and what closes their list. -/
theorem lexes_renderItems {items : List Json} (h : ∀ j ∈ items, LexesAnywhere j) (level : Nat)
    {cs rest : List Char} {ts : List Token} (hstops : Stops (cs ++ rest))
    (hclose : Lexes cs ts rest) :
    Lexes (renderItems level items ++ cs) (itemTokens items ++ ts) rest
      ∧ Stops (renderItems level items ++ cs ++ rest) := by
  induction items with
  | nil => exact ⟨hclose, hstops⟩
  | cons j items ih =>
      obtain ⟨hitems, hnext⟩ := ih fun k hk => h k (List.mem_cons_of_mem j hk)
      have hj := (h j List.mem_cons_self level _ hnext).append hitems
      have hcomma := (hj.newline level).mark (c := ',') rfl fun _ => rfl
      refine ⟨?_, stops_comma _⟩
      simpa [renderItems, itemTokens] using hcomma

/-- A member: its name, a colon and its value. -/
theorem lexes_member (name : String) (level : Nat) {j : Json} (h : LexesAnywhere j)
    {cs rest : List Char} {ts : List Token} (hstops : Stops (cs ++ rest))
    (hnext : Lexes cs ts rest) :
    Lexes (renderString name ++ ':' :: ' ' :: (renderAt level j ++ cs))
      (.string name :: .colon :: (valueTokens j ++ ts)) rest := by
  have hj := (h level _ hstops).append hnext
  exact ((hj.space (c := ' ') rfl).mark (c := ':') rfl fun _ => rfl).string name

theorem lexes_renderMembers {members : List (String × Json)} (h : ∀ m ∈ members, LexesAnywhere m.2)
    (level : Nat) {cs rest : List Char} {ts : List Token} (hstops : Stops (cs ++ rest))
    (hclose : Lexes cs ts rest) :
    Lexes (renderMembers level members ++ cs) (memberTokens members ++ ts) rest
      ∧ Stops (renderMembers level members ++ cs ++ rest) := by
  induction members with
  | nil => exact ⟨hclose, hstops⟩
  | cons m members ih =>
      obtain ⟨name, j⟩ := m
      obtain ⟨hmembers, hnext⟩ := ih fun k hk => h k (List.mem_cons_of_mem _ hk)
      have hj := lexes_member name level (h _ List.mem_cons_self) hnext hmembers
      have hcomma := (hj.newline level).mark (c := ',') rfl fun _ => rfl
      refine ⟨?_, stops_comma _⟩
      simpa [renderMembers, memberTokens] using hcomma

/-- Written JSON falls apart into the tokens of its value. -/
theorem Whole.lexes {j : Json} (h : Whole j) : LexesAnywhere j := by
  induction h with
  | null => exact fun _ _ _ => lexes_token rfl rfl
  | bool b => cases b <;> exact fun _ _ _ => lexes_token rfl rfl
  | number n => exact fun _ _ hrest => lexes_integer n hrest
  | string s =>
      intro level rest _
      simpa [renderAt, valueTokens] using (lexes_nil rest).string s
  | @array items _ ih =>
      intro level rest _
      have hclose := (lexes_nil rest).mark (c := ']') (t := .closeBracket) rfl fun _ => rfl
      cases items with
      | nil => exact hclose.mark rfl fun _ => rfl
      | cons j items =>
          obtain ⟨hitems, hnext⟩ := lexes_renderItems
            (fun k hk => ih k (List.mem_cons_of_mem j hk)) (level + 1)
            (stops_newline level [']'] rest) (hclose.newline level)
          have hj := (ih j List.mem_cons_self (level + 1) _ hnext).append hitems
          have hopen := (hj.newline (level + 1)).mark (c := '[') rfl fun _ => rfl
          simpa [renderAt, valueTokens] using hopen
  | @object members _ ih =>
      intro level rest _
      have hclose := (lexes_nil rest).mark (c := '\x7d') (t := .closeBrace) rfl fun _ => rfl
      cases members with
      | nil => exact hclose.mark rfl fun _ => rfl
      | cons m members =>
          obtain ⟨name, j⟩ := m
          obtain ⟨hmembers, hnext⟩ := lexes_renderMembers
            (fun k hk => ih k (List.mem_cons_of_mem _ hk)) (level + 1)
            (stops_newline level ['\x7d'] rest) (hclose.newline level)
          have hj := lexes_member name (level + 1) (ih _ List.mem_cons_self) hnext hmembers
          have hopen := (hj.newline (level + 1)).mark (c := '\x7b') rfl fun _ => rfl
          simpa [renderAt, valueTokens] using hopen

theorem tokens_render {j : Json} (h : Whole j) :
    tokens j.render.toList = some (valueTokens j) := by
  rw [render, String.toList_ofList]
  exact (h.lexes 0 [] stops_nil).tokens_eq

end BountyBoard.Json
