import BountyBoard.Proofs.FreshIds

/-!
# Who sets the parameters

The parameters of a board come from two hands. A snapshot brings the first
ones, with the authority and the next id, into a store that has none; from
then on every snapshot is refused. Afterwards only the authority that is
configured replaces them, one message at a time, and no message touches the
stored authority. Nothing else writes either of the two (`governs`).

The authority that is configured is not compared with the stored one, and an
update asks for no snapshot before it: parameters can come into an empty
store by a message, and then the store never has an authority. So what
stands in the two fields is stated for each on its own, as what was set last
(`params_afterAll`, `authority_afterAll`).
-/

namespace BountyBoard.Store

/-! ## One event -/

/-- The parameters that an event sets: those of a snapshot that is put in, or
of an update that is accepted. -/
def newParams? (s : Store) (event : Event) : Option Params :=
  match event with
  | .start .. => (s.imported? event).map Snapshot.params
  | .message _ _ (.setParams p) _ => (s.answer? event).map fun _ => p
  | .message .. => none

/-- The authority that an event sets. Only a snapshot brings one. -/
def newAuthority? (s : Store) (event : Event) : Option String :=
  match event with
  | .start _ authority => (s.imported? event).map fun _ => authority
  | .message .. => none

/-- What an event does to the parameters and to the authority. -/
inductive Governs (s : Store) (event : Event) : Prop
  | stays
      (params : (s.next event).params = s.params)
      (authority : (s.next event).authority = s.authority)
      (unset : s.newParams? event = none)
      (unnamed : s.newAuthority? event = none)
  | founds {g : Snapshot} {who : String}
      (start : event = .start g who)
      (accepted : s.initialise g who = .ok (s.next event))
      (blank : s.params = none)
      (params : (s.next event).params = some g.params)
      (counter : (s.next event).nextId = g.nextId)
      (authority : (s.next event).authority = some who)
      (sound : g.params.fault? = none)
  | replaces {who : String} {p : Params} {now : Time}
      (message : event = .message who who (.setParams p) now)
      (answer : s.answer? event = some .paramsUpdated)
      (address : Address.IsText who)
      (params : (s.next event).params = some p)
      (authority : (s.next event).authority = s.authority)
      (sound : p.fault? = none)

theorem Accepts.governs {s : Store} {authority sender : String} {m : Message} {now : Time}
    {e : Effect} (h : s.Accepts authority sender now m e) :
    s.Governs (.message authority sender m now) := by
  have hnext : s.next (.message authority sender m now) = s.commit e.writes := after_eq h
  have hanswer : s.answer? (.message authority sender m now) = some e.response :=
    answer?_eq_some.mpr ⟨e, h, rfl⟩
  cases h with
  | setParams address governor sound =>
      subst governor
      exact .replaces rfl hanswer address (by rw [hnext]; rfl) (by rw [hnext]; rfl) sound
  | _ => exact .stays (by rw [hnext]; rfl) (by rw [hnext]; rfl) rfl rfl

theorem governs (s : Store) (event : Event) : s.Governs event := by
  cases event with
  | start g who =>
      cases hinit : s.initialise g who with
      | error refusal =>
          have hnext := next_start_refused hinit
          have himported : s.imported? (.start g who) = none := by rw [imported?, hinit]
          refine .stays (by rw [hnext]) (by rw [hnext]) ?_ ?_
          · rw [newParams?, himported, Option.map_none]
          · rw [newAuthority?, himported, Option.map_none]
      | ok later =>
          have hnext := next_started hinit
          obtain ⟨hblank, -, hsound, rfl⟩ := initialise_eq_ok.mp hinit
          refine .founds rfl (hnext ▸ hinit) hblank ?_ ?_ ?_ hsound.params
          all_goals rw [hnext]; rfl
  | message authority sender m now =>
      cases heffect : s.effect authority sender m now with
      | error refusal =>
          have hnext := next_refused heffect
          refine .stays (by rw [hnext]) (by rw [hnext]) ?_ rfl
          -- other messages set nothing, whatever the answer
          cases m with
          | setParams p => rw [newParams?, answer?_refused heffect, Option.map_none]
          | _ => rfl
      | ok e => exact (effect_eq_ok.mp heffect).governs

/-- A snapshot is put in exactly when it is sound, whoever puts it in has an
address, and there are no parameters yet. -/
theorem exists_initialise_iff {s : Store} {g : Snapshot} {who : String} :
    (∃ later, s.initialise g who = .ok later)
      ↔ s.params = none ∧ Address.IsText who ∧ g.Sound := by
  simp only [initialise_eq_ok, exists_and_left, exists_eq', and_true]

/-- An update is accepted exactly when its sender is the configured authority
and has an address, and the parameters are in order. -/
theorem answer?_setParams {s : Store} {authority sender : String} {p : Params} {now : Time} :
    s.answer? (.message authority sender (.setParams p) now) = some .paramsUpdated
      ↔ Address.IsText sender ∧ sender = authority ∧ p.fault? = none := by
  rw [answer?_eq_some]
  constructor
  · rintro ⟨e, haccepts, -⟩
    cases haccepts with
    | setParams address governor sound => exact ⟨address, governor, sound⟩
  · rintro ⟨address, governor, sound⟩
    exact ⟨_, .setParams address governor sound, rfl⟩

/-- Once there are parameters, a snapshot is refused before it is looked at. -/
theorem start_refused {s : Store} (h : s.params ≠ none) (g : Snapshot) (who : String) :
    s.initialise g who = .error (.badSnapshot .alreadyInitialised)
    ∧ s.next (.start g who) = s := by
  have hinit : s.initialise g who = .error (.badSnapshot .alreadyInitialised) := by
    obtain ⟨p, hp⟩ := Option.ne_none_iff_exists'.mp h
    simp only [initialise, hp]
    rfl
  exact ⟨hinit, next_start_refused hinit⟩

/-! ## Histories -/

/-- Stored parameters passed their check when they came. -/
theorem params_sound_afterAll (events : List Event) {p : Params}
    (hp : (empty.afterAll events).params = some p) : p.fault? = none := by
  revert p
  refine afterAll_induction (P := fun s => ∀ {p}, s.params = some p → p.fault? = none)
    (fun hp => by cases hp) ?_
  intro s event _ hsound p hp
  cases s.governs event with
  | stays params => exact hsound (params ▸ hp)
  | founds _ _ _ params _ _ sound =>
      cases params.symm.trans hp
      exact sound
  | replaces _ _ _ params _ sound =>
      cases params.symm.trans hp
      exact sound

theorem params_next (s : Store) (event : Event) :
    (s.next event).params = (s.newParams? event).or s.params := by
  cases s.governs event with
  | stays params _ unset => rw [params, unset, Option.none_or]
  | founds start accepted _ params =>
      subst start
      rw [params, newParams?, imported?, accepted]
      rfl
  | replaces message answer _ params =>
      subst message
      rw [params, newParams?, answer]
      rfl

theorem authority_next (s : Store) (event : Event) :
    (s.next event).authority = (s.newAuthority? event).or s.authority := by
  cases s.governs event with
  | stays _ authority _ unnamed => rw [authority, unnamed, Option.none_or]
  | founds start accepted _ _ _ authority =>
      subst start
      rw [authority, newAuthority?, imported?, accepted]
      rfl
  | replaces message _ _ _ authority =>
      subst message
      exact authority

theorem params_afterAll (events : List Event) :
    (empty.afterAll events).params = empty.latest? newParams? events :=
  (afterAll_eq_latest? params_next empty events).trans (Option.or_none ..)

theorem authority_afterAll (events : List Event) :
    (empty.afterAll events).authority = empty.latest? newAuthority? events :=
  (afterAll_eq_latest? authority_next empty events).trans (Option.or_none ..)

/-- Stored parameters always pass their check. An event changes them only as
a snapshot that comes into a store without parameters, or as an accepted
update that the configured authority sends; it changes the stored authority
only as such a snapshot, with the parameters and the next id. At most one
snapshot is put in along a history, and what is stored was set last. An
update is accepted from the authority and from nobody else. Once there are
parameters, every snapshot is refused and changes nothing. -/
theorem governance :
    (∀ (events : List Event) (p : Params), (empty.afterAll events).params = some p →
      p.fault? = none)
    ∧ (∀ (s : Store) (event : Event), s.Governs event)
    ∧ (∀ events : List Event, (empty.imports events).length ≤ 1
      ∧ (empty.afterAll events).params = empty.latest? newParams? events
      ∧ (empty.afterAll events).authority = empty.latest? newAuthority? events)
    ∧ (∀ (s : Store) (authority sender : String) (p : Params) (now : Time),
      s.answer? (.message authority sender (.setParams p) now) = some .paramsUpdated
        ↔ Address.IsText sender ∧ sender = authority ∧ p.fault? = none)
    ∧ (∀ (s : Store) (g : Snapshot) (who : String),
      (∃ later, s.initialise g who = .ok later)
        ↔ s.params = none ∧ Address.IsText who ∧ g.Sound)
    ∧ ∀ (s : Store) (g : Snapshot) (who : String), s.params ≠ none →
      s.initialise g who = .error (.badSnapshot .alreadyInitialised)
      ∧ s.next (.start g who) = s := by
  refine ⟨fun events p hp => params_sound_afterAll events hp, governs, ?_,
    fun _ _ _ _ _ => answer?_setParams, fun _ _ _ => exists_initialise_iff, ?_⟩
  · intro events
    exact ⟨sound_empty.length_imports_le events, params_afterAll events, authority_afterAll events⟩
  · intro s g who hparams
    exact start_refused hparams g who

/-- The sample history has its parameters and its authority from the first
day, and another snapshot is refused. -/
theorem governance_sample :
    Params.default.fault? = none
    ∧ empty.latest? newParams? Sample.untilReview = some .default
    ∧ (empty.afterAll Sample.untilReview).next (.start .default Sample.bob)
      = empty.afterAll Sample.untilReview := by
  have hparams : (empty.afterAll Sample.untilReview).params = some .default := by decide +kernel
  obtain ⟨hsound, -, hlatest, -, -, hrefused⟩ := governance
  obtain ⟨-, hset, -⟩ := hlatest Sample.untilReview
  refine ⟨hsound _ _ hparams, hset.symm.trans hparams, ?_⟩
  exact (hrefused _ _ _ (hparams ▸ Option.some_ne_none _)).2

end BountyBoard.Store
