import BountyBoard.CommandLine.Folder
import BountyBoard.Proofs.Acceptance

/-!
# A board among other files

The board of a directory is kept in one entry, and what a run does to the
folder besides is little: it makes directories where nothing is, puts the
other entries of the board in place, and writes at most one file. Up to the
point where the command itself is run, nothing changes but that directories
and entries of the board are added (`Prepares`), so a file outside the
directory of the board reads as it did before, and a path that could be
followed can still be followed.

Where a path leads is a matter of its text alone (`placeOf`). What is in the
folder decides only whether it can be followed there.
-/

namespace BountyBoard.CommandLine

/-- The fault is one that the program has its own message for. -/
def FileFault.Fixed (fault : FileFault) : Prop :=
  ∀ message, fault ≠ .other message

namespace Folder

/-! ## Entries -/

theorem entry?_put_self (f : Folder) {place : List String} (h : place ≠ []) (e : Entry) :
    entry? (f.put place e) place = some e := by
  cases place with
  | nil => exact absurd rfl h
  | cons => simp [put, entry?]

theorem entry?_put_of_ne (f : Folder) {place other : List String} (h : other ≠ place)
    (e : Entry) : entry? (f.put place e) other = f.entry? other := by
  cases other with
  | nil => rfl
  | cons name rest =>
      have hsame : ∀ e : List String × Entry,
          (!decide (e.1 = place) && decide (e.1 = name :: rest)) = (e.1 == name :: rest) := by
        intro e
        by_cases he : e.1 = name :: rest <;> simp [he, h]
      simp [put, entry?, Ne.symm h, List.find?_filter, hsame]

/-! ## Places -/

/-- The place that a path leads to, if it can be followed. -/
def placeOf (f : Folder) (path : String) : List String :=
  (Path.parts path).foldl next (f.start path)

theorem step_eq_ok {f : Folder} {place after : List String} {part : String} :
    f.step place part = .ok after
      ↔ f.entry? place = some .directory ∧ Path.isLongName part = false
        ∧ next place part = after := by
  rw [step]
  cases f.entry? place with
  | none => simp
  | some e =>
      cases e with
      | directory => by_cases hlong : Path.isLongName part = true <;> simp [hlong]
      | text => simp
      | board => simp

theorem foldl_next_of_foldlM {f : Folder} {start place : List String} {parts : List String}
    (h : parts.foldlM f.step start = .ok place) : parts.foldl next start = place := by
  induction parts generalizing start with
  | nil => exact pure_eq_ok.mp h
  | cons part rest ih =>
      rw [List.foldlM_cons, bind_eq_ok] at h
      obtain ⟨after, hstep, hrest⟩ := h
      obtain ⟨-, -, rfl⟩ := step_eq_ok.mp hstep
      exact ih hrest

theorem eq_placeOf {f : Folder} {path : String} {place : List String}
    (h : f.follow path (Path.parts path) = .ok place) : place = f.placeOf path := by
  rw [follow] at h
  split at h
  · cases h
  · exact (foldl_next_of_foldlM h).symm

theorem fixed_of_follow {f : Folder} {path : String} {parts : List String} {fault : FileFault}
    (h : f.follow path parts = .error fault) : fault.Fixed := by
  rw [follow] at h
  split at h
  · cases h
    exact nofun
  · generalize f.start path = start at h
    induction parts generalizing start with
    | nil => exact absurd h pure_ne_error
    | cons part rest ih =>
        rw [List.foldlM_cons, bind_eq_error] at h
        rcases h with h | ⟨after, -, h⟩
        · rw [step] at h
          split at h
          · cases h
            exact nofun
          · split at h <;> cases h
            exact nofun
          · cases h
            exact nofun
        · exact ih after h

/-! ## What changes nothing of importance -/

/-- The store of the board in the directory at a place. -/
def boardAt (f : Folder) (d : List String) : Store :=
  match f.entry? ("db" :: d) with
  | some (.board s) => s
  | _ => .empty

/-- From one folder to the other, directories and entries of the board at the
place `d` are added, and the store of the board is the same. -/
structure Prepares (d : List String) (f f' : Folder) : Prop where
  current : f'.current = f.current
  clock : f'.clock = f.clock
  directory : ∀ place, f.entry? place = some .directory → f'.entry? place = some .directory
  text : ∀ place text, ¬d <:+ place → f'.entry? place = some (.text text) →
    f.entry? place = some (.text text)
  board : f'.boardAt d = f.boardAt d

namespace Prepares

variable {d : List String} {f f' f'' : Folder}

theorem refl (d : List String) (f : Folder) : Prepares d f f :=
  ⟨rfl, rfl, fun _ h => h, fun _ _ _ h => h, rfl⟩

theorem trans (h : Prepares d f f') (h' : Prepares d f' f'') : Prepares d f f'' where
  current := h'.current.trans h.current
  clock := h'.clock.trans h.clock
  directory place hdir := h'.directory place (h.directory place hdir)
  text place text hout htext := h.text place text hout (h'.text place text hout htext)
  board := h'.board.trans h.board

theorem start (h : Prepares d f f') (path : String) : f'.start path = f.start path := by
  rw [Folder.start, Folder.start, h.current]

theorem placeOf (h : Prepares d f f') (path : String) : f'.placeOf path = f.placeOf path := by
  rw [Folder.placeOf, Folder.placeOf, h.start]

/-- A path that could be followed still leads to the same place. -/
theorem follow (h : Prepares d f f') {path : String} {parts : List String} {place : List String}
    (hfollow : f.follow path parts = .ok place) : f'.follow path parts = .ok place := by
  rw [Folder.follow] at hfollow ⊢
  split at hfollow
  · cases hfollow
  · rename_i hshort
    rw [if_neg hshort, h.start]
    generalize f.start path = start at hfollow ⊢
    induction parts generalizing start with
    | nil => exact hfollow
    | cons part rest ih =>
        rw [List.foldlM_cons, bind_eq_ok] at hfollow ⊢
        obtain ⟨after, hstep, hrest⟩ := hfollow
        obtain ⟨hdir, hname, rfl⟩ := step_eq_ok.mp hstep
        exact ⟨_, step_eq_ok.mpr ⟨h.directory _ hdir, hname, rfl⟩, ih _ hrest⟩

end Prepares

theorem boardAt_put_of_ne {f : Folder} {d place : List String} (h : place ≠ "db" :: d)
    (e : Entry) : (f.put place e).boardAt d = f.boardAt d := by
  rw [boardAt, entry?_put_of_ne f h.symm, boardAt]

theorem boardAt_put (f : Folder) (d : List String) (s : Store) :
    (f.put ("db" :: d) (.board s)).boardAt d = s := by
  rw [boardAt, entry?_put_self f (List.cons_ne_nil _ _)]

/-- Putting a directory where nothing is. -/
theorem prepares_put_directory {f : Folder} {place : List String} (h : f.entry? place = none)
    (d : List String) : Prepares d f (f.put place .directory) := by
  have hplace : place ≠ [] := by
    rintro rfl
    cases h
  refine ⟨rfl, rfl, ?_, ?_, ?_⟩
  · intro other hdir
    by_cases hother : other = place
    · rw [hother, entry?_put_self f hplace]
    · rw [entry?_put_of_ne f hother, hdir]
  · intro other text _ htext
    by_cases hother : other = place
    · rw [hother, entry?_put_self f hplace] at htext
      cases htext
    · rwa [entry?_put_of_ne f hother] at htext
  · by_cases hboard : place = "db" :: d
    · subst hboard
      rw [boardAt, entry?_put_self f hplace, boardAt, h]
    · exact boardAt_put_of_ne hboard _

/-- Putting an entry of the board in place, where no directory is. -/
theorem prepares_put_inside {f : Folder} {name : String} {d : List String}
    (h : f.entry? (name :: d) ≠ some .directory) {e : Entry}
    (hboard : (f.put (name :: d) e).boardAt d = f.boardAt d) :
    Prepares d f (f.put (name :: d) e) := by
  refine ⟨rfl, rfl, ?_, ?_, hboard⟩
  · intro place hdir
    have hplace : place ≠ name :: d := by
      rintro rfl
      exact h hdir
    rw [entry?_put_of_ne f hplace, hdir]
  · intro place text hout htext
    have hplace : place ≠ name :: d := by
      rintro rfl
      exact hout (List.suffix_cons name d)
    rwa [entry?_put_of_ne f hplace] at htext

/-! ## The way to the board -/

/-- An action that prepares the folder, and fails only with fixed messages. -/
def Safe {α : Type} (d : List String) (action : StateM Folder (Except FileFault α)) : Prop :=
  ∀ f, Prepares d f (action f).2 ∧ ∀ fault, (action f).1 = .error fault → fault.Fixed

theorem Safe.bind {α β : Type} {d : List String} {x : StateM Folder (Except FileFault α)}
    {k : Except FileFault α → StateM Folder (Except FileFault β)} (hx : Safe d x)
    (ok : ∀ a, Safe d (k (.ok a))) (error : ∀ fault, fault.Fixed → Safe d (k (.error fault))) :
    Safe d (x >>= k) := by
  intro f
  obtain ⟨hprepares, hfixed⟩ := hx f
  have hk : Safe d (k (x f).1) := by
    cases hresult : (x f).1 with
    | ok a => exact ok a
    | error fault => exact error fault (hfixed fault hresult)
  obtain ⟨hrest, hfault⟩ := hk (x f).2
  exact ⟨hprepares.trans hrest, hfault⟩

theorem safe_ok {α : Type} (d : List String) (a : α) : Safe d (pure (.ok a)) :=
  fun f => ⟨.refl d f, fun _ h => by cases h⟩

theorem safe_error {α : Type} (d : List String) {fault : FileFault} (h : fault.Fixed) :
    Safe d (pure (.error fault : Except FileFault α)) := by
  intro f
  refine ⟨.refl d f, fun other hother => ?_⟩
  cases hother
  exact h

theorem change_ok (action : Folder → Except FileFault Folder) {f f' : Folder}
    (h : action f = .ok f') : change action f = (.ok (), f') := by
  rw [change, h]

/-- An action that fails leaves the folder as it is. -/
theorem change_error (action : Folder → Except FileFault Folder) {f : Folder}
    {fault : FileFault} (h : action f = .error fault) : change action f = (.error fault, f) := by
  rw [change, h]

theorem makeDirectory_ok {f f' : Folder} {path : String} (h : f.makeDirectory path = .ok f')
    (d : List String) : Prepares d f f' := by
  rw [makeDirectory, bind_eq_ok] at h
  obtain ⟨place, -, h⟩ := h
  split at h <;> cases h
  rename_i hnone
  exact prepares_put_directory (Option.not_isSome_iff_eq_none.mp hnone) d

theorem makeDirectory_error {f : Folder} {path : String} {fault : FileFault}
    (h : f.makeDirectory path = .error fault) : fault.Fixed := by
  rw [makeDirectory, bind_eq_error] at h
  rcases h with h | ⟨place, -, h⟩
  · exact fixed_of_follow h
  · split at h <;> cases h
    exact nofun

theorem safe_makeDirectory (d : List String) (path : String) :
    Safe d (host.makeDirectory path) := by
  intro f
  show Prepares d f (change (·.makeDirectory path) f).2 ∧
    ∀ fault, (change (·.makeDirectory path) f).1 = .error fault → fault.Fixed
  cases hmake : f.makeDirectory path with
  | ok f' =>
      rw [change_ok _ hmake]
      exact ⟨makeDirectory_ok hmake d, fun _ h => by cases h⟩
  | error fault =>
      rw [change_error _ hmake]
      refine ⟨.refl d f, fun other h => ?_⟩
      cases h
      exact makeDirectory_error hmake

theorem safe_addDirectory (d : List String) (path : String) : Safe d (addDirectory host path) := by
  refine (safe_makeDirectory d path).bind (safe_ok d) fun fault hfixed => ?_
  cases fault with
  | «exists» =>
      intro f
      show Prepares d f f ∧ ∀ other,
        (if f.isDirectory path then .ok () else .error FileFault.exists)
          = Except.error other → other.Fixed
      refine ⟨.refl d f, fun other hother => ?_⟩
      split at hother <;> cases hother
      exact hfixed
  | _ => exact safe_error d hfixed

theorem safe_makeWay (d : List String) (way : List String) : Safe d (makeWay host way) := by
  induction way with
  | nil => exact safe_ok d ()
  | cons path before ih =>
      refine (safe_addDirectory d path).bind (safe_ok d) fun fault hfixed => ?_
      cases fault with
      | missing =>
          exact ih.bind (fun _ => safe_addDirectory d path) fun _ => safe_error d
      | _ => exact safe_error d hfixed

theorem addBlobs_ok {f f' : Folder} {directory : String} (h : f.addBlobs directory = .ok f')
    (d : List String) : Prepares d f f' := by
  rw [addBlobs] at h
  split at h
  · cases h
    exact .refl d f
  · exact makeDirectory_ok h d

theorem addBlobs_error {f : Folder} {directory : String} {fault : FileFault}
    (h : f.addBlobs directory = .error fault) : fault.Fixed := by
  rw [addBlobs] at h
  split at h
  · cases h
  · exact makeDirectory_error h

theorem prepares_putNew (f : Folder) {name : String} {d : List String} (hname : name ≠ "db")
    (e : Entry) : Prepares d f (f.putNew (name :: d) e) := by
  rw [putNew]
  split
  · exact .refl d f
  · rename_i hnone
    have hother : name :: d ≠ "db" :: d := fun h => hname (List.cons.inj h).1
    refine prepares_put_inside (fun hdir => ?_) (boardAt_put_of_ne hother e)
    rw [hdir] at hnone
    exact hnone rfl

/-- A board that can be opened is the one that is kept in the directory, and
the directory can be followed to from then on. -/
theorem openBoard_cases (f : Folder) (directory : String) :
    (∃ fault f', f.openBoard directory = (.error fault, f')
      ∧ Prepares (f.placeOf directory) f f' ∧ fault.Fixed)
    ∨ ∃ f', f.openBoard directory = (.ok (f.boardAt (f.placeOf directory)), f')
      ∧ Prepares (f.placeOf directory) f f'
      ∧ f'.follow directory (Path.parts directory) = .ok (f.placeOf directory) := by
  cases hblobs : f.addBlobs directory with
  | error fault =>
      refine .inl ⟨fault, f, ?_, .refl _ f, addBlobs_error hblobs⟩
      simp only [openBoard, hblobs]
  | ok f₁ =>
      have h₁ := addBlobs_ok hblobs (f.placeOf directory)
      cases hfollow : f.follow directory (Path.parts directory) with
      | error fault =>
          refine .inl ⟨fault, f₁, ?_, h₁, fixed_of_follow hfollow⟩
          simp only [openBoard, hblobs, hfollow]
      | ok place =>
          obtain rfl := eq_placeOf hfollow
          generalize hd : f.placeOf directory = d at h₁ hfollow ⊢
          by_cases hconf : f₁.entry? ("conf" :: d) = some .directory
          · refine .inl ⟨.isDirectory, f₁, ?_, h₁, nofun⟩
            simp only [openBoard, hblobs, hfollow, hconf]
          · have h₂ : Prepares d f (f₁.putNew ("conf" :: d) (.text "")) :=
              h₁.trans (prepares_putNew f₁ (by decide) _)
            simp only [openBoard, hblobs, hfollow]
            generalize f₁.putNew ("conf" :: d) (.text "") = f₂ at h₂ ⊢
            split
            · exact .inl ⟨_, f₂, rfl, h₂, nofun⟩
            · rename_i s hdb
              have hs : f.boardAt d = s := by rw [← h₂.board, boardAt, hdb]
              exact .inr ⟨f₂, by rw [hs], h₂, h₂.follow hfollow⟩
            · rename_i hdir hnone
              have hs : f.boardAt d = .empty := by
                rw [← h₂.board, boardAt]
                split
                · exact absurd ‹_› (hnone _)
                · rfl
              have h₃ : Prepares d f₂ (f₂.put ("db" :: d) (.board .empty)) :=
                prepares_put_inside hdir (by rw [boardAt_put, h₂.board, hs])
              exact .inr ⟨_, by rw [hs], h₂.trans h₃, (h₂.trans h₃).follow hfollow⟩

/-! ## Files and boards -/

theorem keepBoard_run {f : Folder} {directory : String} {d : List String}
    (h : f.follow directory (Path.parts directory) = .ok d) (s : Store) :
    host.keepBoard directory s f = (.ok (), f.put ("db" :: d) (.board s)) := by
  have hkeep : f.keepBoard directory s = .ok (f.put ("db" :: d) (.board s)) := by
    rw [keepBoard, h]
    rfl
  exact change_ok (·.keepBoard directory s) hkeep

theorem read_eq_ok {f : Folder} {path text : String} (h : f.read path = .ok text) :
    f.entry? (f.placeOf path) = some (.text text) := by
  rw [read, bind_eq_ok] at h
  obtain ⟨place, hfollow, h⟩ := h
  obtain rfl := eq_placeOf hfollow
  split at h <;> cases h
  assumption

theorem fixed_of_read {f : Folder} {path : String} {fault : FileFault}
    (h : f.read path = .error fault) : fault.Fixed := by
  rw [read, bind_eq_error] at h
  rcases h with h | ⟨place, -, h⟩
  · exact fixed_of_follow h
  · split at h <;> cases h <;> exact nofun

theorem write_eq_ok {f f' : Folder} {path text : String} (h : f.write path text = .ok f') :
    f' = f.put (f.placeOf path) (.text text) := by
  rw [write] at h
  split at h
  · obtain ⟨_, -, h⟩ := bind_eq_ok.mp h
    cases h
  · obtain ⟨place, hfollow, h⟩ := bind_eq_ok.mp h
    obtain rfl := eq_placeOf hfollow
    split at h <;> cases h
    rfl

theorem fixed_of_write {f : Folder} {path text : String} {fault : FileFault}
    (h : f.write path text = .error fault) : fault.Fixed := by
  rw [write] at h
  split at h
  · rcases bind_eq_error.mp h with h | ⟨_, -, h⟩
    · exact fixed_of_follow h
    · cases h
      exact nofun
  · rcases bind_eq_error.mp h with h | ⟨_, -, h⟩
    · exact fixed_of_follow h
    · split at h <;> cases h
      exact nofun

end Folder

end BountyBoard.CommandLine
