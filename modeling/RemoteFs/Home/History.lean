import RemoteFs.Home.Inspect

/-!
# What stays in a home

A daemon that ended stays as it is, and no daemon changes what it was started with. `Later`
says how the database files and the session tree of one state of a home are found in a later
one: files stay with the daemon that made them, what is new was made by a daemon, and the tree
names the file it named or a new one. A daemon that mounts has loaded its root directory, and
the answer stays in its session.
-/

namespace RemoteFs

open Session (InodeId)

/-! ### Finished calls -/

namespace Session

namespace System

variable [Uuid] [Sha256] [Prost]

omit [Sha256] [Prost] in
theorem Advances.unfinished {env : Surroundings} {clock : ℤ} {session : Session}
    {cache : Cache.State} {request : Request} {phase : Phase} {outcome : Outcome}
    (h : Advances env clock session cache request phase outcome) : phase.finished = false := by
  cases h with
  | settled _ _ result hphase => exact hphase
  | crashed _ _ call hphase =>
      cases phase with
      | returned result => cases hphase
      | panicked => cases hphase
      | _ => rfl
  | _ => rfl

theorem Steps.finished {root : PathBuf} {s s' : State} (h : Steps root s s') {i : ℕ}
    {task : Task} (hi : s.tasks[i]? = some task) (hfinished : task.phase.finished = true) :
    s'.tasks[i]? = some task := by
  have hother : ∀ {j : ℕ} {other : Task} (next : Task), s.tasks[j]? = some other →
      other.phase.finished = false → (s.tasks.set j next)[i]? = some task := by
    intro j other next hj hunfinished
    have hne : j ≠ i := by
      rintro rfl
      rw [hi, Option.some.injEq] at hj
      rw [hj, hunfinished] at hfinished
      cases hfinished
    rw [List.getElem?_set_ne hne, hi]
  cases h with
  | call request =>
      dsimp only
      rw [List.getElem?_append_left (List.getElem?_eq_some_iff.mp hi).1, hi]
  | lock j request inode hj => exact hother _ hj rfl
  | refused j request inode hj => exact hother _ hj rfl
  | proceed j env clock request phase outcome hj hadvance =>
      exact hother _ hj (advances_of_advance hadvance).unfinished
  | cache => exact hi

end System

end Session

namespace Home

/-! ### Processes -/

def Daemons.ended (daemons : Daemons) (i : ℕ) : Bool :=
  (daemons.threads[i]?.bind Process.exit).isSome

section Processes

variable [Uuid] [Sha256] [Prost] {home : PathBuf} {daemons daemons' : Daemons}

/-- A process stays with what it was started with, and once it has ended it has. -/
theorem Steps.process (hsteps : Steps home daemons daemons') {i : ℕ} {process : Process}
    (hi : daemons.threads[i]? = some process) :
    ∃ process', daemons'.threads[i]? = some process' ∧
      process'.arguments = process.arguments ∧
      (process.exit.isSome = true → process' = process) := by
  have hset : ∀ {j : ℕ} {old : Process} (new : Process), daemons.threads[j]? = some old →
      old.exit = none → new.arguments = old.arguments →
      ∃ process', (daemons.threads.set j new)[i]? = some process' ∧
        process'.arguments = process.arguments ∧
        (process.exit.isSome = true → process' = process) := by
    intro j old new hj halive harguments
    by_cases hij : j = i
    · subst hij
      rw [hi, Option.some.injEq] at hj
      subst hj
      refine ⟨new, Pool.getElem?_set_same hi new, harguments, fun hended => ?_⟩
      rw [halive] at hended
      cases hended
    · exact ⟨process, by rw [List.getElem?_set_ne hij, hi], rfl, fun _ => rfl⟩
  cases hsteps with
  | started arguments =>
      refine ⟨process, ?_, rfl, fun _ => rfl⟩
      dsimp only
      rw [List.getElem?_append_left (List.getElem?_eq_some_iff.mp hi).1, hi]
  | homed => exact ⟨process, hi, rfl, fun _ => rfl⟩
  | proceeded j old contents' phase' hj halive => exact hset _ hj halive rfl
  | ended j old contents' exit hj halive => exact hset _ hj halive rfl

theorem Steps.ended_stays (hsteps : Steps home daemons daemons') {i : ℕ}
    (h : daemons.ended i = true) : daemons'.ended i = true := by
  rw [Daemons.ended, Option.isSome_iff_exists] at h
  obtain ⟨exit, hexit⟩ := h
  obtain ⟨process, hi, hprocess⟩ := Option.bind_eq_some_iff.mp hexit
  obtain ⟨process', hi', -, hsame⟩ := hsteps.process hi
  rw [Daemons.ended, hi', hsame (by rw [hprocess]; rfl), Option.bind_some, hprocess]
  rfl

end Processes

/-! ### Database files -/

/-- What is found later of the database files and of the one the session tree names. -/
structure Later (contents contents' : Contents) : Prop where
  length : contents.databases.length ≤ contents'.databases.length
  origin : ∀ (d : ℕ) file, contents.databases[d]? = some file →
    ∃ file', contents'.databases[d]? = some file' ∧ file'.origin = file.origin
  made : ∀ (d : ℕ) file', contents.databases.length ≤ d →
    contents'.databases[d]? = some file' → ∃ j, file'.origin = .daemon j
  named : ∀ d, contents'.tree.bind Tree.database = some d →
    contents.tree.bind Tree.database = some d ∨ contents.databases.length ≤ d

theorem Later.of_databases {contents contents' : Contents}
    (hdatabases : contents'.databases = contents.databases)
    (hnamed : ∀ d, contents'.tree.bind Tree.database = some d →
      contents.tree.bind Tree.database = some d) : Later contents contents' where
  length := hdatabases ▸ le_rfl
  origin := fun d file hfile => ⟨file, by rw [hdatabases, hfile], rfl⟩
  made := by
    intro d file' hd hfile
    rw [hdatabases] at hfile
    have hlt := (List.getElem?_eq_some_iff.mp hfile).1
    omega
  named := fun d hd => .inl (hnamed d hd)

theorem Later.refl (contents : Contents) : Later contents contents :=
  .of_databases rfl fun _ => id

theorem Later.trans {first second third : Contents} (h : Later first second)
    (h' : Later second third) : Later first third where
  length := h.length.trans h'.length
  origin := by
    intro d file hfile
    obtain ⟨file', hfile', horigin⟩ := h.origin d file hfile
    obtain ⟨file'', hfile'', horigin'⟩ := h'.origin d file' hfile'
    exact ⟨file'', hfile'', horigin'.trans horigin⟩
  made := by
    intro d file'' hd hfile
    by_cases hlt : d < second.databases.length
    · obtain ⟨j, hj⟩ := h.made d _ hd (List.getElem?_eq_getElem hlt)
      obtain ⟨file', hfile', horigin⟩ := h'.origin d _ (List.getElem?_eq_getElem hlt)
      rw [hfile, Option.some.injEq] at hfile'
      exact ⟨j, by rw [hfile', horigin, hj]⟩
    · exact h'.made d file'' (Nat.le_of_not_lt hlt) hfile
  named := by
    intro d hd
    obtain hold | hnew := h'.named d hd
    · exact h.named d hold
    · exact .inr (h.length.trans hnew)

theorem Later.createDatabase (contents : Contents) (index : ℕ) :
    Later contents (contents.createDatabase (.daemon index)) where
  length := by
    rw [Contents.createDatabase]
    simp
  origin := by
    intro d file hfile
    refine ⟨file, ?_, rfl⟩
    rw [Contents.createDatabase]
    dsimp only
    rw [List.getElem?_append_left (List.getElem?_eq_some_iff.mp hfile).1, hfile]
  made := by
    intro d file' hd hfile
    rw [Contents.createDatabase] at hfile
    obtain hold | rfl := Pool.getElem?_append_cases hfile
    · have hlt := (List.getElem?_eq_some_iff.mp hold).1
      omega
    · exact ⟨index, rfl⟩
  named := by
    intro d hd
    right
    obtain ⟨tree, htree, hdatabase⟩ := Option.bind_eq_some_iff.mp hd
    obtain ⟨old, -, rfl⟩ := Option.map_eq_some_iff.mp htree
    cases hdatabase
    exact le_rfl

theorem Later.writeDatabase (contents : Contents) (database : ℕ)
    {f : DatabaseFile → DatabaseFile} (hf : ∀ file, (f file).origin = file.origin) :
    Later contents (contents.writeDatabase database f) where
  length := by
    rw [Contents.writeDatabase]
    dsimp only
    rw [List.length_modify]
  origin := by
    intro d file hfile
    rw [Contents.writeDatabase]
    dsimp only
    rw [List.getElem?_modify, hfile]
    refine ⟨if database = d then f file else file, rfl, ?_⟩
    split
    · exact hf file
    · rfl
  made := by
    intro d file' hd hfile
    have hlt := (List.getElem?_eq_some_iff.mp hfile).1
    rw [Contents.writeDatabase] at hlt
    dsimp only at hlt
    rw [List.length_modify] at hlt
    omega
  named := fun d hd => .inl hd

theorem Later.mapTree (contents : Contents) {f : Tree → Tree}
    (hf : ∀ tree d, (f tree).database = some d → tree.database = some d) :
    Later contents (contents.mapTree f) := by
  refine .of_databases rfl fun d hd => ?_
  obtain ⟨tree, htree, hdatabase⟩ := Option.bind_eq_some_iff.mp hd
  obtain ⟨old, hold, rfl⟩ := Option.map_eq_some_iff.mp htree
  rw [hold]
  exact hf old d hdatabase

theorem Later.deposit (contents : Contents) (database : ℕ) (session : Session.System.State) :
    Later contents (Home.deposit contents database session) := by
  have h := Later.writeDatabase contents database
    (f := fun file => { file with tables := some session.session.store.database }) fun _ => rfl
  exact ⟨h.length, h.origin, h.made, h.named⟩

section Steps

variable [Uuid] [Sha256] [Prost] {home : PathBuf} {daemons daemons' : Daemons}

theorem Proceeds.later {index : ℕ} {lockFree : Bool} {arguments : Arguments}
    {contents contents' : Contents} {phase phase' : Phase}
    (h : Proceeds home index lockFree arguments contents phase contents' phase') :
    Later contents contents' := by
  have hdrop : Later contents contents.dropSocket := .mapTree contents fun _ _ => id
  cases h with
  | removed entry =>
      refine .mapTree contents fun tree d hd => ?_
      cases entry with
      | database => cases hd
      | overlay => exact hd
      | socket => exact hd
  | emptied => exact .of_databases rfl fun d hd => by cases hd
  | created => exact .of_databases rfl fun d hd => by cases hd
  | databaseCreated => exact .createDatabase contents index
  | databaseMissing => exact .createDatabase contents index
  | overlayOpened => exact .mapTree contents fun _ _ => id
  | bound => exact .mapTree contents fun _ _ => id
  | schemaCreated database => exact .writeDatabase contents database fun _ => rfl
  | versionRecorded database => exact .writeDatabase contents database fun _ => rfl
  | initialized database => exact .writeDatabase contents database fun _ => rfl
  | moved _ database session session' => exact .deposit contents database session'
  | closed control control' database session called session' =>
      exact .deposit contents database session'
  | socketRemoved control control' database session contents' removed hcontents =>
      obtain rfl | rfl := hcontents
      · exact .refl _
      · exact hdrop
  | _ => exact .of_databases rfl fun _ => id

theorem Steps.later (hsteps : Steps home daemons daemons') :
    Later daemons.shared.contents daemons'.shared.contents := by
  cases hsteps with
  | started arguments => exact .refl _
  | homed => exact .of_databases rfl fun _ => id
  | proceeded i process contents' phase' hi halive hproceeds => exact hproceeds.later
  | ended i process contents' exit hi halive hends =>
      exact .of_databases hends.databases fun d hd => hends.database ▸ hd

/-- What is found after any steps. -/
theorem later_of_run {moves : List Move}
    (h : Transition.run (step home) daemons moves = some daemons') :
    Later daemons.shared.contents daemons'.shared.contents :=
  Transition.run_rel (I := fun _ => True)
    (R := fun s s' : Daemons => Later s.shared.contents s'.shared.contents)
    (fun s => .refl s.shared.contents)
    (fun s t _ (h : Later s.shared.contents t.shared.contents) h' => h.trans h')
    (fun _ _ _ _ _ => trivial) (fun _ _ _ _ hstep => (steps_of_step hstep).later)
    moves daemons daemons' trivial h

theorem arguments_of_run {moves : List Move} {i : ℕ} {arguments : Arguments}
    (h : Transition.run (step home) daemons moves = some daemons')
    (hi : daemons.threads[i]?.map Process.arguments = some arguments) :
    daemons'.threads[i]?.map Process.arguments = some arguments := by
  refine Transition.run_invariant
    (I := fun s : Daemons => s.threads[i]?.map Process.arguments = some arguments)
    (fun s move s' hinv hstep => ?_) moves daemons daemons' hi h
  obtain ⟨process, hprocess, rfl⟩ := Option.map_eq_some_iff.mp hinv
  obtain ⟨process', hprocess', harguments, -⟩ := (steps_of_step hstep).process hprocess
  rw [hprocess', Option.map_some, harguments]

/-! ### The root directory -/

/-- The daemon has loaded the root directory, as a daemon that mounts has. -/
def Phase.rooted : Phase → Prop
  | .mountFuse _ session => ∃ answer,
      session.tasks[0]?.map Session.System.Task.phase = some (.returned (.ok answer))
  | .bindSocket _ session => ∃ answer,
      session.tasks[0]?.map Session.System.Task.phase = some (.returned (.ok answer))
  | .restrictSocket _ session => ∃ answer,
      session.tasks[0]?.map Session.System.Task.phase = some (.returned (.ok answer))
  | .serving _ _ session => ∃ answer,
      session.tasks[0]?.map Session.System.Task.phase = some (.returned (.ok answer))
  | _ => True

theorem first_stays {root : PathBuf} {session session' : Session.System.State}
    {move : Session.System.Move} (h : Session.System.step root session move = some session')
    (hfirst : ∃ answer,
      session.tasks[0]?.map Session.System.Task.phase = some (.returned (.ok answer))) :
    ∃ answer,
      session'.tasks[0]?.map Session.System.Task.phase = some (.returned (.ok answer)) := by
  obtain ⟨answer, hfirst⟩ := hfirst
  obtain ⟨task, htask, hphase⟩ := Option.map_eq_some_iff.mp hfirst
  have hstays := (Session.System.steps_of_step h).finished htask (by rw [hphase]; rfl)
  exact ⟨answer, by rw [hstays, Option.map_some, hphase]⟩

theorem Proceeds.rooted {index : ℕ} {lockFree : Bool} {arguments : Arguments}
    {contents contents' : Contents} {phase phase' : Phase}
    (h : Proceeds home index lockFree arguments contents phase contents' phase')
    (hrooted : phase.rooted) : phase'.rooted := by
  cases h with
  | loaded database session answer htask =>
      rw [List.head?_eq_getElem?] at htask
      exact ⟨answer, htask⟩
  | moved _ database session session' move hphase haccepts hstep =>
      cases phase with
      | mountFuse | bindSocket | restrictSocket | serving =>
          cases hphase
          exact first_stays hstep hrooted
      | _ => trivial
  | closed control control' database session called session' env clock result hcloses hcall
      hclose =>
      exact first_stays hclose (first_stays hcall hrooted)
  | mounted => exact hrooted
  | bound => exact hrooted
  | restricted => exact hrooted
  | controlled => exact hrooted
  | closeFailed => exact hrooted
  | socketRemoved => exact hrooted
  | _ => trivial

theorem rooted_of_reached (h : Reached home daemons) :
    ∀ process ∈ daemons.threads, process.phase.rooted := by
  obtain ⟨contents, moves, -, hrun⟩ := h
  refine Transition.run_invariant
    (I := fun daemons : Daemons => ∀ process ∈ daemons.threads, process.phase.rooted)
    (fun s move s' hinv hstep => ?_) moves (start contents) daemons
    (fun process hprocess => by cases hprocess) hrun
  cases steps_of_step hstep with
  | started arguments =>
      intro process hprocess
      obtain hold | hnew := List.mem_append.mp hprocess
      · exact hinv process hold
      · rw [List.mem_singleton.mp hnew]
        trivial
  | homed => exact hinv
  | proceeded i process contents' phase' hi halive hproceeds =>
      intro other hother
      obtain hold | rfl := List.mem_or_eq_of_mem_set hother
      · exact hinv other hold
      · exact hproceeds.rooted (hinv process (List.mem_of_getElem? hi))
  | ended i process contents' exit hi halive hends =>
      intro other hother
      obtain hold | rfl := List.mem_or_eq_of_mem_set hother
      · exact hinv other hold
      · exact hinv process (List.mem_of_getElem? hi)

end Steps

end Home

end RemoteFs
