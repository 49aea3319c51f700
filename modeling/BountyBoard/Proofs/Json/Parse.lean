import BountyBoard.Json.Parse
import BountyBoard.Proofs.Json.Token

/-!
# Written JSON is read back

A value is read from its own tokens, whatever stands behind them, in at most
two steps a token (`Whole.parses`). With the tokens of written JSON known,
reading undoes writing (`parse_render`).
-/

namespace BountyBoard.Json

/-- The value is read from its tokens, wherever they stand. -/
def ParsesAnywhere (j : Json) : Prop :=
  ∀ fuel rest, 2 * (valueTokens j).length ≤ fuel →
    parseValue fuel (valueTokens j ++ rest) = some (j, rest)

/-- No value begins with the bracket that would close an empty list. -/
theorem valueTokens_eq_cons (j : Json) :
    ∃ t ts, valueTokens j = t :: ts ∧ t ≠ .closeBracket := by
  cases j with
  | array items => cases items <;> exact ⟨_, _, rfl, by decide⟩
  | object members => cases members <;> exact ⟨_, _, rfl, by decide⟩
  | bool b => exact ⟨_, _, rfl, by simp⟩
  | number n => exact ⟨_, _, rfl, by simp⟩
  | string s => exact ⟨_, _, rfl, by simp⟩
  | _ => exact ⟨_, _, rfl, by decide⟩

/-- A value has a token at least, so there is a step to take. -/
theorem parsesAnywhere_of_step {j : Json}
    (h : ∀ fuel rest, 2 * (valueTokens j).length ≤ fuel + 1 →
      parseValue (fuel + 1) (valueTokens j ++ rest) = some (j, rest)) : ParsesAnywhere j := by
  intro fuel rest hfuel
  obtain ⟨t, ts, heq, -⟩ := valueTokens_eq_cons j
  obtain ⟨fuel, rfl⟩ : ∃ f, fuel = f + 1 := ⟨fuel - 1, by simp [heq] at hfuel; omega⟩
  exact h fuel rest hfuel

theorem parseItems_tokens {items : List Json} (h : ∀ j ∈ items, ParsesAnywhere j) {j : Json}
    (hj : ParsesAnywhere j) (fuel : Nat)
    (hfuel : 2 * ((valueTokens j).length + (itemTokens items).length) < fuel) (rest : List Token) :
    parseItems fuel (valueTokens j ++ (itemTokens items ++ .closeBracket :: rest))
      = some (j :: items, rest) := by
  induction items generalizing j fuel with
  | nil =>
      obtain ⟨fuel, rfl⟩ : ∃ f, fuel = f + 1 := ⟨fuel - 1, by omega⟩
      rw [itemTokens, List.nil_append, parseItems, hj fuel _ (by omega)]
  | cons k items ih =>
      obtain ⟨fuel, rfl⟩ : ∃ f, fuel = f + 1 := ⟨fuel - 1, by omega⟩
      simp only [itemTokens, List.length_append, List.length_cons] at hfuel
      have hrest := ih (fun i hi => h i (List.mem_cons_of_mem k hi)) (h k List.mem_cons_self)
        fuel (by omega)
      rw [itemTokens, List.cons_append, List.append_assoc, parseItems, hj fuel _ (by omega)]
      simp only [hrest, Option.map_some]

theorem parseMembers_tokens {members : List (String × Json)}
    (h : ∀ m ∈ members, ParsesAnywhere m.2) (name : String) {j : Json} (hj : ParsesAnywhere j)
    (fuel : Nat) (hfuel : 2 * ((valueTokens j).length + (memberTokens members).length) < fuel)
    (rest : List Token) :
    parseMembers fuel
        (.string name :: .colon :: (valueTokens j ++ (memberTokens members ++ .closeBrace :: rest)))
      = some ((some name, j) :: members.map fun m => (some m.1, m.2), rest) := by
  induction members generalizing name j fuel with
  | nil =>
      obtain ⟨fuel, rfl⟩ : ∃ f, fuel = f + 1 := ⟨fuel - 1, by omega⟩
      rw [memberTokens, List.nil_append, parseMembers, hj fuel _ (by omega)]
      rfl
  | cons m members ih =>
      obtain ⟨fuel, rfl⟩ : ∃ f, fuel = f + 1 := ⟨fuel - 1, by omega⟩
      obtain ⟨next, k⟩ := m
      simp only [memberTokens, List.length_append, List.length_cons] at hfuel
      have hrest := ih (fun i hi => h i (List.mem_cons_of_mem _ hi)) next
        (h _ List.mem_cons_self) fuel (by simp only; omega)
      rw [memberTokens, List.cons_append, List.cons_append, List.cons_append, List.append_assoc,
        parseMembers, hj fuel _ (by omega)]
      simp only [memberName?, hrest, Option.map_some, List.map_cons]

theorem mapM_eq_some {α β : Type} {f : α → Option β} {g : α → β} {xs : List α}
    (h : ∀ x ∈ xs, f x = some (g x)) : xs.mapM f = some (xs.map g) := by
  induction xs with
  | nil => rfl
  | cons x xs ih =>
      have hrest := ih fun y hy => h y (List.mem_cons_of_mem x hy)
      simp [h x List.mem_cons_self, hrest]

theorem objectOf_map (members : List (String × Json)) :
    objectOf (members.map fun m => (some m.1, m.2)) = .object members := by
  rw [objectOf, List.mapM_map, mapM_eq_some (g := id)]
  · rw [List.map_id]
  · exact fun _ _ => rfl

/-- A value is read from its own tokens. -/
theorem Whole.parses {j : Json} (h : Whole j) : ParsesAnywhere j := by
  induction h with
  | null => exact parsesAnywhere_of_step fun _ _ _ => rfl
  | bool b => exact parsesAnywhere_of_step fun _ _ _ => rfl
  | number n => exact parsesAnywhere_of_step fun _ _ _ => rfl
  | string s => exact parsesAnywhere_of_step fun _ _ _ => rfl
  | @array items _ ih =>
      refine parsesAnywhere_of_step fun fuel rest hfuel => ?_
      cases items with
      | nil => rfl
      | cons j items =>
          simp only [valueTokens, List.length_cons, List.length_append] at hfuel
          have hitems := parseItems_tokens (fun k hk => ih k (List.mem_cons_of_mem j hk))
            (ih j List.mem_cons_self) fuel (by omega) rest
          obtain ⟨t, ts, heq, hne⟩ := valueTokens_eq_cons j
          simp only [valueTokens, List.cons_append, List.append_assoc, List.nil_append, heq]
            at hitems ⊢
          rw [parseValue, hitems]
          · rfl
          · exact fun _ hclose => hne (List.cons.inj hclose).1
  | @object members _ ih =>
      refine parsesAnywhere_of_step fun fuel rest hfuel => ?_
      cases members with
      | nil => rfl
      | cons m members =>
          obtain ⟨name, j⟩ := m
          simp only [valueTokens, List.length_cons, List.length_append] at hfuel
          have hmembers := parseMembers_tokens (fun k hk => ih k (List.mem_cons_of_mem _ hk)) name
            (ih _ List.mem_cons_self) fuel (by simp only; omega) rest
          simp only [valueTokens, List.cons_append, List.append_assoc, List.nil_append]
          rw [parseValue, hmembers, ← objectOf_map]
          · rfl
          · simp

/-- Reading undoes writing. -/
theorem parse_render {j : Json} (h : Whole j) : parse j.render = some j := by
  have hparse := h.parses (2 * (valueTokens j).length + 1) [] (by omega)
  rw [List.append_nil] at hparse
  rw [parse, tokens_render h]
  simp only [hparse]

end BountyBoard.Json
