import BountyBoard.Proofs.Tree
import BountyBoard.Store

/-!
# What commits leave behind

Whatever batches were committed to an empty store, in whatever mixture of
rows, removals and repeated ids, each commit has the same law for each id: a
batch that removes the id leaves no row, else the last row that the batch
has for it stands, else the row from before (`commits`). The order of the
writes matters only for one id, and there the removals come last.

The rows lie in the order of their ids, so a list of them all is the same
for every way that led to them. A visitor sees this list from its front, up
to and with the first row after which it does not want to go on
(`exists_visits`). Which row that is depends on what the visitor has made of
the rows before it, hence the state in `EndsInStop`.
-/

namespace BountyBoard

/-! ## One batch -/

/-- What a batch makes of a store. -/
structure Commits (before : Store) (b : Batch) (after : Store) : Prop where
  tasks : ∀ id, after.tasks.get? id
    = if id ∈ b.removedTasks then none
      else (b.tasks.reverse.find? fun t => t.id == id).or (before.tasks.get? id)
  rewards : ∀ id, after.rewards.get? id
    = (b.rewards.reverse.find? fun r => r.taskId == id).or (before.rewards.get? id)
  params : after.params = b.params.or before.params
  nextId : after.nextId = b.nextId.getD before.nextId
  authority : after.authority = b.authority.or before.authority

theorem Table.get?_foldl_erase {α : Type} {key : α → TaskId} (t : Table key) (ids : List TaskId)
    (id : TaskId) :
    (ids.foldl Table.erase t).get? id = if id ∈ ids then none else t.get? id := by
  induction ids generalizing t with
  | nil => simp
  | cons removed rest ih =>
      rw [List.foldl_cons, ih, get?_erase]
      by_cases hrest : id ∈ rest
      · simp [hrest]
      · by_cases hid : id = removed <;> simp [hrest, hid]

theorem commits (s : Store) (b : Batch) : Commits s b (s.commit b) where
  tasks id := by rw [Store.commit, Table.get?_foldl_erase, Table.get?_foldl_insert]
  rewards id := by rw [Store.commit, Table.get?_foldl_insert]
  params := rfl
  nextId := rfl
  authority := rfl

/-! ## The trees under the tables -/

/-- The writes of a batch to the tree of the tasks, in their order. -/
def Batch.writeTasks (b : Batch) (tree : Tree Task) : Tree Task :=
  b.removedTasks.foldl (fun tree id => tree.remove (bigEndian id))
    (b.tasks.foldl (fun tree t => tree.put (bigEndian t.id) t) tree)

/-- The writes of a batch to the tree of the rewards. -/
def Batch.writeRewards (b : Batch) (tree : Tree Reward) : Tree Reward :=
  b.rewards.foldl (fun tree r => tree.put (bigEndian r.taskId) r) tree

namespace Table

variable {α : Type} {key : α → TaskId}

/-- The tree keeps the rows of the table, each under the key of its own id. -/
structure KeptIn (t : Table key) (tree : Tree α) : Prop where
  entries : tree = t.rows.map fun a => (bigEndian (key a), a)
  ordered : tree.Pairwise fun e f => comesBefore e.1 f.1 = true
  found : ∀ id, tree.get? (bigEndian id) = t.get? id

theorem keptIn_tree (t : Table key) : t.KeptIn t.tree :=
  ⟨rfl, t.pairwise_tree, t.get?_tree⟩

theorem tree_foldl_insert (t : Table key) (rows : List α) :
    (rows.foldl insert t).tree
      = rows.foldl (fun tree a => tree.put (bigEndian (key a)) a) t.tree :=
  (List.foldl_hom tree fun t a => (tree_insert t a).symm).symm

theorem tree_foldl_erase (t : Table key) (ids : List TaskId) :
    (ids.foldl erase t).tree = ids.foldl (fun tree id => tree.remove (bigEndian id)) t.tree :=
  (List.foldl_hom tree fun t id => (tree_erase t id).symm).symm

/-- The list has the rows of the table, once each and in ascending order of
ids, and each row is found under its own id. -/
structure Lists (t : Table key) (rows : List α) : Prop where
  own : ∀ id a, t.get? id = some a → key a = id
  mem : ∀ a, a ∈ rows ↔ t.get? (key a) = some a
  once : rows.Nodup
  ascending : rows.Pairwise fun a b => key a < key b

theorem lists_rows (t : Table key) : t.Lists t.rows where
  own _ _ := key_of_get?
  mem _ := mem_rows_iff
  once := (List.pairwise_map.mp t.nodup_keys).imp fun hne heq => hne (congrArg key heq)
  ascending := t.ascending

end Table

namespace Store

/-- The store after some commits. -/
def commitAll (s : Store) (batches : List Batch) : Store :=
  batches.foldl commit s

theorem tree_tasks_commitAll (s : Store) (batches : List Batch) :
    batches.foldl (fun tree b => b.writeTasks tree) s.tasks.tree
      = (s.commitAll batches).tasks.tree := by
  refine List.foldl_hom (fun s : Store => s.tasks.tree) fun s b => ?_
  rw [Batch.writeTasks, commit, Table.tree_foldl_erase, Table.tree_foldl_insert]

theorem tree_rewards_commitAll (s : Store) (batches : List Batch) :
    batches.foldl (fun tree b => b.writeRewards tree) s.rewards.tree
      = (s.commitAll batches).rewards.tree := by
  refine List.foldl_hom (fun s : Store => s.rewards.tree) fun s b => ?_
  rw [Batch.writeRewards, commit, Table.tree_foldl_insert]

end Store

/-! ## Visitors -/

section

variable {σ α : Type} {visit : σ → α → σ × Bool}

/-- What a visitor has come to after some rows, if it never stops. -/
def stateAfter (visit : σ → α → σ × Bool) (start : σ) (rows : List α) : σ :=
  rows.foldl (fun state a => (visit state a).1) start

/-- The visits of these rows, one after the other, end in one that says to stop. -/
def EndsInStop (visit : σ → α → σ × Bool) (start : σ) (rows : List α) : Prop :=
  ∃ front a, rows = front ++ [a] ∧ (visit (stateAfter visit start front) a).2 = false

/-- The seen rows are the shortest front of the list that ends in a stop, or
the whole list if there is none. -/
structure Visits (visit : σ → α → σ × Bool) (start : σ) (rows seen : List α) : Prop where
  front : seen <+: rows
  shortest : ∀ front, front <+: rows → EndsInStop visit start front → seen <+: front
  stops : EndsInStop visit start seen ∨ seen = rows

/-- The visitor that also writes down what it sees. -/
def logging (visit : σ → α → σ × Bool) (state : σ × List α) (a : α) : (σ × List α) × Bool :=
  (((visit state.1 a).1, state.2 ++ [a]), (visit state.1 a).2)

theorem endsInStop_cons {start : σ} {a : α} {rest : List α} :
    EndsInStop visit start (a :: rest)
      ↔ (rest = [] ∧ (visit start a).2 = false) ∨ EndsInStop visit (visit start a).1 rest := by
  constructor
  · rintro ⟨front, b, heq, hstop⟩
    cases front with
    | nil =>
        obtain ⟨rfl, rfl⟩ := List.cons.inj heq
        exact .inl ⟨rfl, hstop⟩
    | cons c front =>
        obtain ⟨rfl, rfl⟩ := List.cons.inj heq
        exact .inr ⟨front, b, rfl, hstop⟩
  · rintro (⟨rfl, hstop⟩ | ⟨front, b, rfl, hstop⟩)
    · exact ⟨[], a, rfl, hstop⟩
    · exact ⟨a :: front, b, rfl, hstop⟩

theorem not_endsInStop_nil {start : σ} : ¬EndsInStop visit start [] := by
  rintro ⟨front, a, heq, -⟩
  simp at heq

/-- A visitor that says to stop has seen the row that it says so for. -/
theorem visits_stop {start : σ} {a : α} {rest : List α} (hstop : (visit start a).2 = false) :
    Visits visit start (a :: rest) [a] where
  front := ⟨rest, rfl⟩
  shortest front hfront hends := by
    cases front with
    | nil => exact absurd hends not_endsInStop_nil
    | cons b front =>
        obtain ⟨rfl, -⟩ := List.cons_prefix_cons.mp hfront
        exact ⟨front, rfl⟩
  stops := .inl (endsInStop_cons.mpr (.inl ⟨rfl, hstop⟩))

theorem visits_go_on {start : σ} {a : α} {rest seen : List α} (hgo : (visit start a).2 = true)
    (h : Visits visit (visit start a).1 rest seen) :
    Visits visit start (a :: rest) (a :: seen) where
  front := List.cons_prefix_cons.mpr ⟨rfl, h.front⟩
  shortest front hfront hends := by
    cases front with
    | nil => exact absurd hends not_endsInStop_nil
    | cons b front =>
        obtain ⟨rfl, htail⟩ := List.cons_prefix_cons.mp hfront
        rcases endsInStop_cons.mp hends with ⟨-, hstop⟩ | hrest
        · cases hgo.symm.trans hstop
        · exact List.cons_prefix_cons.mpr ⟨rfl, h.shortest front htail hrest⟩
  stops := h.stops.imp (fun hends => endsInStop_cons.mpr (.inr hends)) (congrArg (a :: ·))

theorem visits_nil (visit : σ → α → σ × Bool) (start : σ) : Visits visit start [] [] where
  front := List.prefix_rfl
  shortest _ _ _ := List.nil_prefix
  stops := .inr rfl

/-- The walk goes over the rows that the law says, and over no other: this is
what the visitor has come to, and what it would have written down. -/
theorem exists_visits (visit : σ → α → σ × Bool) (start : σ) (rows : List α) :
    ∃ seen, Visits visit start rows seen
      ∧ Store.visitRows visit start rows = stateAfter visit start seen
      ∧ ∀ log, Store.visitRows (logging visit) (start, log) rows
        = (stateAfter visit start seen, log ++ seen) := by
  induction rows generalizing start with
  | nil => exact ⟨[], visits_nil visit start, rfl, fun log => by simp [Store.visitRows, stateAfter]⟩
  | cons a rest ih =>
      cases hvisit : visit start a with
      | mk next go =>
          cases go with
          | false =>
              refine ⟨[a], visits_stop (by rw [hvisit]), ?_, fun log => ?_⟩
              · simp [Store.visitRows, stateAfter, hvisit]
              · simp [Store.visitRows, logging, stateAfter, hvisit]
          | true =>
              obtain ⟨seen, hseen, hstate, hlog⟩ := ih next
              refine ⟨a :: seen, visits_go_on (by rw [hvisit]) (by rwa [hvisit]), ?_, fun log => ?_⟩
              · simp [Store.visitRows, stateAfter, hvisit, hstate]
              · simp [Store.visitRows, logging, stateAfter, hvisit, hlog]

end

/-! ## The whole store -/

/-- The visitor that collects everything. -/
def collect {α : Type} (rows : List α) (a : α) : List α × Bool :=
  (rows ++ [a], true)

theorem visitRows_collect {α : Type} (collected rows : List α) :
    Store.visitRows collect collected rows = collected ++ rows := by
  induction rows generalizing collected with
  | nil => rw [Store.visitRows, List.append_nil]
  | cons a rest ih =>
      rw [Store.visitRows, collect]
      exact (ih (collected ++ [a])).trans (List.append_assoc collected [a] rest)

namespace Store

/-- Any batches, one after the other, committed to an empty store. Each one
more writes what it says. The rows lie under the keys of their own ids, in
the order of the keys. Listing them gives the rows that are there, once each
and in ascending order of ids, and a visitor sees this list until it stops. -/
theorem commits_exact (batches : List Batch) :
    (∀ b, Commits (empty.commitAll batches) b (empty.commitAll (batches ++ [b])))
    ∧ (empty.commitAll batches).tasks.KeptIn
        (batches.foldl (fun tree b => b.writeTasks tree) [])
    ∧ (empty.commitAll batches).rewards.KeptIn
        (batches.foldl (fun tree b => b.writeRewards tree) [])
    ∧ (empty.commitAll batches).tasks.Lists ((empty.commitAll batches).walk collect [])
    ∧ (empty.commitAll batches).rewards.Lists (empty.commitAll batches).rewards.rows
    ∧ ∀ (σ : Type) (visit : σ → Task → σ × Bool) (start : σ),
        ∃ seen, Visits visit start ((empty.commitAll batches).walk collect []) seen
          ∧ (empty.commitAll batches).walk visit start = stateAfter visit start seen
          ∧ (empty.commitAll batches).walk (logging visit) (start, [])
            = (stateAfter visit start seen, seen) := by
  have hall : (empty.commitAll batches).walk collect [] = (empty.commitAll batches).tasks.rows :=
    visitRows_collect [] _
  rw [hall]
  refine ⟨?_, ?_, ?_, Table.lists_rows _, Table.lists_rows _, ?_⟩
  · intro b
    rw [commitAll, commitAll, List.foldl_append]
    exact commits _ b
  · have htree := tree_tasks_commitAll empty batches
    exact htree ▸ Table.keptIn_tree _
  · have htree := tree_rewards_commitAll empty batches
    exact htree ▸ Table.keptIn_tree _
  · intro σ visit start
    obtain ⟨seen, hseen, hstate, hlog⟩ :=
      exists_visits visit start (empty.commitAll batches).tasks.rows
    exact ⟨seen, hseen, hstate, hlog []⟩

/-- The order is that of the numbers, whatever the order of the writes. A
row that is removed in the batch that puts it is not there. -/
example :
    ((empty.commit
      { tasks := [300, 2, 256, 7].map fun id => Task.posted id "ada" "Fix the pump" "It leaks."
          ⟨⟨1000, by decide⟩, "stake"⟩ 100
        removedTasks := [7] }).tasks.rows.map (·.id)) = [2, 256, 300] := by decide

end Store

end BountyBoard
