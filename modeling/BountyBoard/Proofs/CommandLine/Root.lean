import BountyBoard.Proofs.CommandLine.Ends

/-!
# A board in the root

The root is a directory that is always there, so nothing can stop a run on the
way to a board in it, unless a directory stands where one of the files of the
board belongs. A run puts no directory there itself: of what it makes on the
way nothing has such a name, and what it keeps or writes is a file
(`RootFree.left`). So one run after another comes to its command there, and
those that print are done (`RootFree.prints`).
-/

namespace BountyBoard.CommandLine

theorem parts_root : Path.parts "/" = ["", ""] := by
  simp +decide [Path.parts, String.splitOn, String.splitOnAux]

theorem expandHome_root (home : Option String) : Path.expandHome home "/" = "/" := by
  rw [Path.expandHome]
  intro rest _ hparts _
  rw [parts_root] at hparts
  exact absurd (List.cons.inj hparts).1 (by decide)

theorem join_root_blobs : Path.join "/" "blobs" = "/blobs" := by
  have hsuffix : "/".toList <:+ "/".toSlice.copy.toList :=
    String.copy_toSlice.symm ▸ List.suffix_refl _
  have hends : "/".endsWith "/" = true :=
    String.endsWith_eq_endsWith_toSlice.trans (String.Slice.endsWith_string_iff.mpr hsuffix)
  rw [Path.join, hends, Bool.or_true, if_pos rfl]
  decide

theorem parts_blobs : Path.parts "/blobs" = ["", "blobs"] := by
  simp +decide [Path.parts, String.splitOn, String.splitOnAux]

namespace Folder

variable {f : Folder} {settings : Settings} {command : Command}

/-! ## The way to the root -/

section

variable (hcurrent : f.current = [])
include hcurrent

/-- Every path starts at the root, also a relative one. -/
theorem start_root (path : String) : f.start path = [] := by
  rw [start, hcurrent, ite_self]

theorem placeOf_root : f.placeOf "/" = [] := by
  rw [placeOf, parts_root, start_root hcurrent]
  rfl

theorem follow_root : f.follow "/" (Path.parts "/") = .ok [] := by
  rw [follow, parts_root, start_root hcurrent]
  rfl

theorem makeWay_root : makeWay host (Path.way "/") f = (.ok (), f) := by
  have hway : Path.way "/" = ["/"] := by
    rw [Path.way, parts_root]
    rfl
  have hmake : f.makeDirectory "/" = .error .exists := by
    rw [makeDirectory, Path.names, parts_root, follow, start_root hcurrent]
    rfl
  have hrun : host.makeDirectory "/" f = (.error .exists, f) :=
    change_error (·.makeDirectory "/") hmake
  have hthere : host.isDirectory "/" f = (true, f) := by
    have hdirectory : f.isDirectory "/" = true := by
      rw [isDirectory, follow_root hcurrent]
      rfl
    rw [← hdirectory]
    rfl
  have hadd : addDirectory host "/" f = (.ok (), f) := by
    rw [addDirectory, bind_run, hrun]
    show (host.isDirectory "/" >>= _) f = _
    rw [bind_run, hthere]
    rfl
  rw [hway, makeWay, bind_run, hadd]
  rfl

theorem addBlobs_root : f.addBlobs "/" = .ok (f.putNew ["blobs"] .directory) := by
  have hfollow : f.follow "/blobs" ["blobs"] = .ok ["blobs"] := by
    rw [follow, start_root hcurrent]
    rfl
  have hnames : Path.names "/blobs" = ["blobs"] := by
    rw [Path.names, parts_blobs]
    rfl
  have hmake : f.makeDirectory "/blobs"
      = if (f.entry? ["blobs"]).isSome then .error .exists
        else .ok (f.put ["blobs"] .directory) := by
    rw [makeDirectory, hnames, hfollow]
    rfl
  rw [addBlobs, join_root_blobs, hmake, putNew]
  cases f.entry? ["blobs"] <;> rfl

end

/-! ## Runs on a board in the root -/

/-- No directory is in the way of the files of a board in the root, where every
path starts. -/
structure RootFree (f : Folder) : Prop where
  current : f.current = []
  conf : f.entry? ["conf"] ≠ some .directory
  db : f.entry? ["db"] ≠ some .directory

namespace RootFree

theorem put (h : f.RootFree) {place : List String} {e : Entry}
    (he : e = .directory → place ≠ ["conf"] ∧ place ≠ ["db"]) : (f.put place e).RootFree := by
  have hput : ∀ {other}, other ≠ [] → f.entry? other ≠ some .directory →
      (e = .directory → place ≠ other) → entry? (f.put place e) other ≠ some .directory := by
    intro other hroot hother hplace
    by_cases hsame : other = place
    · subst hsame
      rw [entry?_put_self f hroot]
      rintro ⟨⟩
      exact hplace rfl rfl
    · rwa [entry?_put_of_ne f hsame]
  exact ⟨h.current, hput (List.cons_ne_nil _ _) h.conf fun hdir => (he hdir).1,
    hput (List.cons_ne_nil _ _) h.db fun hdir => (he hdir).2⟩

theorem putNew (h : f.RootFree) {place : List String} {e : Entry}
    (he : e = .directory → place ≠ ["conf"] ∧ place ≠ ["db"]) : (f.putNew place e).RootFree := by
  rw [Folder.putNew]
  split
  · exact h
  · exact h.put he

theorem openBoard (h : f.RootFree) :
    ∃ s f', f.openBoard "/" = (.ok s, f') ∧ f'.RootFree := by
  have hblobs : (f.putNew ["blobs"] .directory).RootFree := h.putNew (by decide)
  have hfiles : ((f.putNew ["blobs"] .directory).putNew ["conf"] (.text "")).RootFree :=
    hblobs.putNew fun h => by cases h
  rw [Folder.openBoard, addBlobs_root h.current, follow_root h.current]
  dsimp only
  split
  · exact absurd ‹_› hblobs.conf
  · split
    · exact absurd ‹_› hfiles.db
    · exact ⟨_, _, rfl, hfiles⟩
    · exact ⟨_, _, rfl, hfiles.put fun h => by cases h⟩

/-- A run on a board in the root comes to its command. -/
theorem runIn (h : f.RootFree) (settings : Settings) (command : Command) :
    ∃ f', f'.RootFree ∧ Prepares [] f f'
      ∧ runIn host "/" settings command f
        = finish host "/" (f.boardAt []) (run (f.boardAt []) (f'.around settings command) command)
          f' := by
  obtain ⟨s, f', hopen, hfree⟩ := h.openBoard
  rcases openBoard_cases f "/" with ⟨_, _, hfault, -⟩ | ⟨_, hopened, hprepares, -⟩
  · cases hfault.symm.trans hopen
  · rw [placeOf_root h.current] at hopened hprepares
    cases hopened.symm.trans hopen
    exact ⟨f', hfree, hprepares, runIn_of_opened (makeWay_root h.current) hopen⟩

theorem putOut (h : f.RootFree) (out : Output) : (putOut host out f).2.RootFree := by
  cases out with
  | line | broken => exact h
  | file path text =>
      rw [CommandLine.putOut, bind_run]
      cases hwrite : f.write path text with
      | ok f' =>
          have hrun : host.write path text f = (.ok (), f') :=
            change_ok (·.write path text) hwrite
          rw [hrun]
          exact write_eq_ok hwrite ▸ h.put fun h => by cases h
      | error fault =>
          have hrun : host.write path text f = (.error fault, f) :=
            change_error (·.write path text) hwrite
          rw [hrun]
          exact h

theorem left (h : f.RootFree) (settings : Settings) (command : Command) :
    (CommandLine.runIn host "/" settings command f).2.RootFree := by
  obtain ⟨f', hfree, -, hrun⟩ := h.runIn settings command
  rw [hrun]
  cases run (f.boardAt []) (f'.around settings command) command with
  | error report => exact hfree
  | ok result =>
      obtain ⟨after, out⟩ := result
      have hkept : (f'.put ["db"] (.board after)).RootFree :=
        hfree.put fun h => by cases h
      rw [finish]
      split
      · exact hfree.putOut out
      · rw [bind_run, keepBoard_run (follow_root hfree.current)]
        exact hkept.putOut out

/-- A command without a file is done if it succeeds in all surroundings, and it
prints unless it is a rejection or an export. -/
theorem prints (h : f.RootFree) (hsource : command.source? = none)
    (hreject : ∀ id reason, command ≠ .reject id reason)
    (hexport : ∀ path, command ≠ .exportTo path)
    (hdone : ∀ around, f.Shows settings command around →
      ∃ s' out, run (f.boardAt []) around command = .ok (s', out)) :
    ∃ text, (CommandLine.runIn host "/" settings command f).1 = .printed (text ++ "\n") := by
  obtain ⟨f', hfree, hprepares, hrun⟩ := h.runIn settings command
  have hshows : f.Shows settings command (f'.around settings command) :=
    hprepares.shows fun path hpath => by simp [hsource] at hpath
  obtain ⟨s', out, hresult⟩ := hdone _ hshows
  obtain ⟨text, rfl⟩ := line_of_run hreject hexport hresult
  rw [hrun, hresult]
  exact ⟨text, finish_line (follow_root hfree.current)⟩

end RootFree

end Folder

end BountyBoard.CommandLine
