import BountyBoard.Encoding
import BountyBoard.Proofs.Json.Parse

/-!
# Records keep everything

Each record of a snapshot is read back from its written form as it was: coins,
statuses, evidence, findings, tasks and parameters, and so snapshots
themselves (`Snapshot.ofText_text`). No rule for valid records plays a part
in this. A record is an object with a member for each field, no two of one
name, so each field finds its own member (`Json.fields_object`).

Many texts are read as the same snapshot, since fields may be left out, put
in another order or given as a list. Only one of them is written, and writing
down what was read brings every other text to it (`Snapshot.text_round_trip`).
-/

namespace BountyBoard

namespace Json

/-! ## Fields -/

/-- A member is the only one with its name. -/
theorem filter_of_nodup {members : List (String × Json)} (h : (members.map Prod.fst).Nodup)
    {m : String × Json} (hm : m ∈ members) : members.filter (fun k => k.1 == m.1) = [m] := by
  induction members with
  | nil => cases hm
  | cons k members ih =>
      obtain ⟨hnew, hnodup⟩ := List.nodup_cons.mp h
      rcases List.mem_cons.mp hm with rfl | hm
      · have hothers : members.filter (fun k => k.1 == m.1) = [] := by
          refine List.filter_eq_nil_iff.mpr fun l hl heq => hnew ?_
          exact List.mem_map.mpr ⟨l, hl, eq_of_beq heq⟩
        rw [List.filter_cons, if_pos (beq_self_eq_true m.1), hothers]
      · have hne : ¬(k.1 == m.1) = true := fun heq =>
          hnew (List.mem_map.mpr ⟨m, hm, (eq_of_beq heq).symm⟩)
        rw [List.filter_cons, if_neg hne, ih hnodup hm]

/-- Each field of an object finds the member with its name. -/
theorem fields_object {names : List String} {members : List (String × Json)} (least : Nat)
    (hnames : members.map Prod.fst = names) (hdistinct : names.Nodup) :
    fields names least (.object members) = some (members.map fun m => some m.2) := by
  subst hnames
  rw [fields, List.mapM_map]
  refine mapM_eq_some fun m hm => ?_
  simp only [Function.comp_apply, field?, filter_of_nodup hdistinct hm]

/-! ## Values of fields -/

theorem readCount?_toNat (n : Count) : readCount? (.number n.toNat) = some n :=
  Count.ofNat?_toNat n

theorem readAmount?_toNat (a : Amount) : readAmount? (.number a.toNat) = some a :=
  Amount.ofNat?_toNat a

theorem readTime?_toInt (t : Time) : readTime? (.number t.toInt) = some t :=
  Time.ofInt?_toInt t

theorem readString?_string (s : String) : readString? (.string s) = some s := rfl

/-- A list is read back if its items are. -/
theorem readList?_map {α : Type} {read : Json → Option α} {write : α → Json}
    (h : ∀ a, read (write a) = some a) (xs : List α) :
    readList? read (.array (xs.map write)) = some xs := by
  have hmap : xs.mapM (read ∘ write) = some (xs.map id) := mapM_eq_some fun a _ => h a
  rw [readList?, List.mapM_map, hmap, List.map_id]

/-- An optional value is read back if its values are and none of them is
written as null. -/
theorem optional_ofOption {α : Type} {read : Json → Option α} {write : α → Json}
    (h : ∀ a, read (write a) = some a) (hnull : ∀ a, write a ≠ .null) (a : Option α) :
    optional read (some (ofOption write a)) = some a := by
  cases a with
  | none => rfl
  | some a =>
      rw [ofOption, optional, h a]
      · rfl
      · exact hnull a

end Json

/-! ## Records -/

theorem Coin.ofJson_toJson (c : Coin) : Coin.ofJson c.toJson = some c := by
  rw [Coin.ofJson, Coin.toJson, Json.fields_object 2 (by rfl) (by decide)]
  simp [Json.required, Json.readString?_string, Json.readAmount?_toNat]

theorem Status.ofJson_toJson (status : Status) : Status.ofJson status.toJson = some status := by
  cases status <;> decide

theorem Evidence.ofJson_toJson (e : Evidence) : Evidence.ofJson e.toJson = some e := by
  rw [Evidence.ofJson, Evidence.toJson, Json.fields_object 4 (by rfl) (by decide)]
  simp [Json.required, Json.readString?_string, Json.readTime?_toInt,
    Json.optional_ofOption Json.readString?_string]

theorem Finding.ofJson_toJson (f : Finding) : Finding.ofJson f.toJson = some f := by
  cases f with
  | submitted e => simp [Finding.ofJson, Finding.toJson, Evidence.ofJson_toJson]
  | rejected reason =>
      have hreason : reasonOfJson (.object [("reason", .string reason)]) = some reason := by
        rw [reasonOfJson, Json.fields_object 1 (by rfl) (by decide)]
        rfl
      simp [Finding.ofJson, Finding.toJson, hreason]

theorem Task.ofJson_toJson (t : Task) : Task.ofJson t.toJson = some t := by
  have hfinding : Json.optional Finding.ofJson (some (Json.ofOption Finding.toJson t.finding))
      = some t.finding :=
    Json.optional_ofOption Finding.ofJson_toJson (fun f => by cases f <;> simp [Finding.toJson])
      t.finding
  rw [Task.ofJson, Task.toJson, Json.fields_object 11 (by rfl) (by decide)]
  simp [Json.required, hfinding, Json.readString?_string, Json.readCount?_toNat,
    Json.readTime?_toInt, Coin.ofJson_toJson, Status.ofJson_toJson,
    Json.optional_ofOption Json.readString?_string]

theorem Params.ofJson_toJson (p : Params) : Params.ofJson p.toJson = some p := by
  rw [Params.ofJson, Params.toJson, Json.fields_object 9 (by rfl) (by decide)]
  simp [Json.required, Json.readCount?_toNat, Coin.ofJson_toJson,
    Json.readList?_map Json.readString?_string]

theorem Snapshot.ofJson_toJson (g : Snapshot) : Snapshot.ofJson g.toJson = some g := by
  rw [Snapshot.ofJson, Snapshot.toJson, Json.fields_object 1 (by rfl) (by decide)]
  simp [Json.required, Json.withDefault, Params.ofJson_toJson, Json.readCount?_toNat,
    Json.readList?_map Task.ofJson_toJson]

/-! ## Their text

No part of a record is of a kind that is not written as it is, so a record
comes back from its text as well. -/

theorem Json.whole_ofOption {α : Type} {write : α → Json} (h : ∀ a, Whole (write a))
    (a : Option α) : Whole (ofOption write a) := by
  cases a with
  | none => exact .null
  | some a => exact h a

theorem Json.whole_map {α : Type} {write : α → Json} (h : ∀ a, Whole (write a)) (xs : List α) :
    Whole (.array (xs.map write)) :=
  .array (List.forall_mem_map.mpr fun a _ => h a)

theorem Coin.whole_toJson (c : Coin) : Json.Whole c.toJson :=
  .object (by simp [Json.Whole.string, Json.Whole.number])

theorem Evidence.whole_toJson (e : Evidence) : Json.Whole e.toJson :=
  .object (by simp [Json.Whole.string, Json.Whole.number, Json.whole_ofOption])

theorem Finding.whole_toJson (f : Finding) : Json.Whole f.toJson := by
  cases f with
  | submitted e => exact .object (by simp [Evidence.whole_toJson])
  | rejected reason =>
      have hreason : Json.Whole (.object [("reason", .string reason)]) :=
        .object (by simp [Json.Whole.string])
      exact .object (by simp [hreason])

theorem Task.whole_toJson (t : Task) : Json.Whole t.toJson :=
  .object (by simp [Json.Whole.string, Json.Whole.number, Json.whole_ofOption, Status.toJson,
    Coin.whole_toJson, Finding.whole_toJson])

theorem Params.whole_toJson (p : Params) : Json.Whole p.toJson :=
  .object (by simp [Json.Whole.string, Json.Whole.number, Json.whole_map, Coin.whole_toJson])

theorem Snapshot.whole_toJson (g : Snapshot) : Json.Whole g.toJson :=
  .object (by simp [Json.Whole.number, Json.whole_map, Params.whole_toJson, Task.whole_toJson])

/-- A snapshot is read back from its text, whatever it holds. -/
theorem Snapshot.ofText_text (g : Snapshot) : ofText g.text = .ok g := by
  have hparse : (Json.parse g.text).bind ofJson = some g := by
    rw [text, Json.parse_render g.whole_toJson]
    exact g.ofJson_toJson
  rw [ofText, hparse]

/-- The text that is written for what a text is read as. -/
def Snapshot.rewritten (s : String) : Except Refusal String :=
  (ofText s).map text

/-- Every snapshot is read back from its text, so no two snapshots have the
same one. What a text was read as is read again from the rewritten text, and
that text stays as it is. -/
theorem Snapshot.text_round_trip :
    (∀ g : Snapshot, ofText g.text = .ok g)
    ∧ (∀ g h : Snapshot, g.text = h.text → g = h)
    ∧ ∀ (s : String) (g : Snapshot), ofText s = .ok g →
      ∃ r, rewritten s = .ok r ∧ ofText r = .ok g ∧ rewritten r = .ok r := by
  have hwritten : ∀ (s : String) (g : Snapshot), ofText s = .ok g → rewritten s = .ok g.text := by
    intro s g h
    rw [rewritten, h]
    rfl
  refine ⟨ofText_text, ?_, ?_⟩
  · intro g h htext
    have hback : ofText g.text = .ok h := by rw [htext, ofText_text]
    exact Except.ok.inj ((ofText_text g).symm.trans hback)
  · intro s g h
    exact ⟨g.text, hwritten s g h, ofText_text g, hwritten g.text g (ofText_text g)⟩

/-- The default snapshot as a list, without spaces and without the fields
that may be left out. -/
def Snapshot.terse : String :=
  "[[[\"stake\",1000],[\"stake\",1000000],100,1000,[\"ipfs\",\"url\",\"text\"],"
    ++ "5,2592000,604800,1209600]]"

/-- The list is rewritten to the text of the default snapshot, which is not
the text of a snapshot with another next id. -/
theorem Snapshot.text_round_trip_sample :
    (∃ r, rewritten terse = .ok r ∧ ofText r = .ok .default ∧ rewritten r = .ok r)
    ∧ Snapshot.default.text ≠ { Snapshot.default with nextId := 1 }.text := by
  obtain ⟨-, hinjective, hrewritten⟩ := text_round_trip
  have hparse : (Json.parse terse).bind ofJson = some .default := by decide +kernel
  have hread : ofText terse = .ok .default := by rw [ofText, hparse]
  refine ⟨hrewritten terse .default hread, fun h => ?_⟩
  cases congrArg Snapshot.nextId (hinjective _ _ h)

end BountyBoard
