import RemoteFs.Home.Commands

/-!
# What the outcome of a command means

A command runs beside the daemons of a home, and other commands and failures come in between.
When `rfs mount` succeeds, a daemon with the digest and the mountpoint that were asked for has
been serving at some point after the command started. When it fails, the daemon it started has
ended. When `rfs unmount` succeeds, the daemon it asked has ended and the session that is
retained was closed by its own daemon. What `rfs status` prints was so when it looked.
-/

namespace RemoteFs

open Session (SessionError Sqlite)

namespace Home

section Success

variable [Uuid] [Sha256] [Prost] {home : PathBuf} {daemons daemons' : Daemons}

/-! ### Commands conform -/

theorem run_of_step {move : Move} (h : step home daemons move = some daemons') :
    ∃ moves, Transition.run (step home) daemons moves = some daemons' :=
  ⟨[move], (Transition.run_cons_eq_some_iff _ _ _ _ _).mpr ⟨daemons', h, rfl⟩⟩

theorem mount_conforms (rootDigest : Digest) (mountpoint : PathBuf) :
    Client.Conforms (step home) (mount home rootDigest mountpoint) := by
  intro daemons phase event daemons' phase' h
  have hsame : ∀ {next : Mount}, some (daemons, next) = some (daemons', phase') →
      ∃ moves, Transition.run (step home) daemons moves = some daemons' := by
    intro next heq
    cases heq
    exact ⟨[], rfl⟩
  unfold mount at h
  split at h
  · split at h
    · exact hsame h
    · split at h
      · exact hsame h
      · obtain ⟨after, hstep, heq⟩ := Option.map_eq_some_iff.mp h
        cases heq
        exact run_of_step hstep
  · obtain ⟨⟨after, probed⟩, hstep, heq⟩ := Option.map_eq_some_iff.mp h
    cases heq
    exact Probe.step_conforms hstep
  · split at h <;> exact hsame h
  · split at h <;> exact hsame h
  · split at h
    · exact hsame h
    · split at h
      · obtain ⟨after, hstep, heq⟩ := Option.map_eq_some_iff.mp h
        cases heq
        exact run_of_step hstep
      · cases h
  · split at h
    · exact hsame h
    · split at h <;> exact hsame h
  · obtain ⟨⟨after, probed⟩, hstep, heq⟩ := Option.map_eq_some_iff.mp h
    cases heq
    exact Probe.step_conforms hstep
  · split at h <;> exact hsame h
  · split at h
    · exact hsame h
    · obtain ⟨after, hstep, heq⟩ := Option.map_eq_some_iff.mp h
      cases heq
      exact run_of_step hstep
  · split at h
    · exact hsame h
    · cases h
  · cases h

theorem unmount_conforms : Client.Conforms (step home) (unmount home) := by
  intro daemons phase event daemons' phase' h
  have hsame : ∀ {next : Unmount}, some (daemons, next) = some (daemons', phase') →
      ∃ moves, Transition.run (step home) daemons moves = some daemons' := by
    intro next heq
    cases heq
    exact ⟨[], rfl⟩
  unfold unmount at h
  split at h
  · obtain ⟨⟨after, probed⟩, hstep, heq⟩ := Option.map_eq_some_iff.mp h
    cases heq
    exact Probe.step_conforms hstep
  · obtain ⟨i, -, heq⟩ := Option.map_eq_some_iff.mp h
    cases heq
    exact ⟨[], rfl⟩
  · obtain ⟨⟨reply, after⟩, hcall, h⟩ := Option.bind_eq_some_iff.mp h
    obtain ⟨result, -, h⟩ := Option.bind_eq_some_iff.mp h
    have hafter : after = daemons' := by
      cases result <;> cases h <;> rfl
    exact hafter ▸ call_conforms hcall
  · split at h
    · exact hsame h
    · split at h
      · exact hsame h
      · cases h
  · exact hsame h
  · exact hsame h
  · cases h

/-- What a command meets in a home, any interleaving of daemons can bring about. -/
theorem Reached.beside {φ ε : Type} {client : Daemons → φ → ε → Option (Daemons × φ)}
    (hconforms : Client.Conforms (step home) client) (h : Reached home daemons) {phase : φ}
    {moves : List (Client.Move Move ε)} {s : Daemons × φ}
    (hrun : Transition.run (Client.step (step home) client) (daemons, phase) moves = some s) :
    Reached home s.1 := by
  obtain ⟨contents, before, hfound, hbefore⟩ := h
  obtain ⟨after, hafter⟩ := Client.run_system hconforms hrun
  exact ⟨contents, before ++ after, hfound,
    (Transition.run_append _ _ _ _ _ hbefore).trans hafter⟩

/-! ### Mount -/

theorem mount_cases {rootDigest : Digest} {mountpoint : PathBuf} {phase : Mount}
    {event : MountEvent} {child : Option ℕ} {answered : SessionStatus}
    (h : mount home rootDigest mountpoint daemons phase event =
      some (daemons', .returned child (.ok answered))) :
    ∃ (probe : Probe) (asked : ProbeEvent) (i : ℕ),
      probe.step home daemons asked = some (daemons', .done (.ok (i, answered))) ∧
        answered.rootDigest = rootDigest ∧
        answered.mountpoint.components = mountpoint.components := by
  unfold mount at h
  split at h
  · split at h
    · cases h
    · split at h
      · cases h
      · obtain ⟨after, -, heq⟩ := Option.map_eq_some_iff.mp h
        cases heq
  · -- the check for an active daemon
    obtain ⟨⟨after, probed⟩, -, heq⟩ := Option.map_eq_some_iff.mp h
    obtain ⟨-, hnext⟩ := Prod.mk.inj heq
    dsimp only at hnext
    unfold ensureNoActiveDaemon at hnext
    split at hnext
    · cases hnext
    · cases hnext
    · split at hnext <;> cases hnext
  · split at h <;> cases h
  · split at h <;> cases h
  · split at h
    · cases h
    · split at h
      · obtain ⟨after, -, heq⟩ := Option.map_eq_some_iff.mp h
        cases heq
      · cases h
  · split at h
    · cases h
    · split at h <;> cases h
  · -- the readiness loop
    next started probe asked =>
      obtain ⟨⟨after, probed⟩, hstep, heq⟩ := Option.map_eq_some_iff.mp h
      obtain ⟨rfl, hnext⟩ := Prod.mk.inj heq
      dsimp only at hnext
      unfold probedReady at hnext
      split at hnext
      · cases hnext
      · cases hnext
      · next i status =>
          split at hnext
          · cases hnext
          · next hsame =>
              cases hnext
              rw [not_or, not_not, not_not] at hsame
              exact ⟨probe, asked, i, hstep, hsame.1, hsame.2⟩
  · split at h <;> cases h
  · split at h
    · cases h
    · obtain ⟨after, -, heq⟩ := Option.map_eq_some_iff.mp h
      cases heq
  · split at h
    · cases h
    · cases h
  · cases h

/-- When `rfs mount` succeeds, a daemon has been serving after the command started: it held
the session lock, had loaded its root directory, and had the digest, the mountpoint and the pid
that were reported, the first two as they were asked for. -/
theorem mount_success (home : PathBuf) (rootDigest : Digest) (mountpoint : PathBuf)
    (daemons daemons' : Daemons) (hreached : Reached home daemons)
    (moves : List (Client.Move Move MountEvent)) (child : Option ℕ) (answered : SessionStatus)
    (hrun : Transition.run (Client.step (step home) (mount home rootDigest mountpoint))
      (daemons, .createHome) moves = some (daemons', .returned child (.ok answered))) :
    ∃ before after asked phase i process, moves = before ++ after ∧
      Transition.run (Client.step (step home) (mount home rootDigest mountpoint))
        (daemons, .createHome) before = some (asked, phase) ∧
      Serves home asked i process ∧ process.phase.rooted ∧ answered = process.status home ∧
      process.arguments.rootDigest = rootDigest ∧
      process.arguments.mountpoint.components = mountpoint.components := by
  obtain ⟨before, event, after, ⟨asked, phase⟩, ⟨asked', phase'⟩, hmoves, hbefore, -, hevent,
    ⟨child', hphase'⟩, -⟩ := Client.exists_event
      (P := fun phase : Mount => ∃ child, phase = .returned child (.ok answered)) hrun
      (by rintro ⟨child, heq⟩; cases heq) ⟨child, rfl⟩
  dsimp only at hevent hphase'
  subst hphase'
  obtain ⟨probe, question, i, hstep, hdigest, hmountpoint⟩ := mount_cases hevent
  have hasked : Reached home asked :=
    hreached.beside (mount_conforms rootDigest mountpoint) hbefore
  obtain ⟨process, hserves, hstatus⟩ := Probe.step_done hasked hstep
  refine ⟨before, _, asked, phase, i, process, hmoves, hbefore, hserves,
    rooted_of_reached hasked process (List.mem_of_getElem? hserves.there), hstatus, ?_, ?_⟩
  · rw [← hdigest, hstatus]
    rfl
  · rw [← hmountpoint, hstatus]
    rfl

end Success

namespace Sample

/-- A mount of an empty home: the daemon it starts comes to serve and answers. -/
def mounting : List (Client.Move Move MountEvent) :=
  [.client (.createHome none), .client (.probe (.connect (some "No such file or directory"))),
    .client (.locateDaemon none), .client (.openStdioLog none), .client (.spawn arguments none),
    .client (.tryWait none "")] ++
  (opening ++ constructing).map (fun event => .system (.act 0 event)) ++
  [.client (.probe (.connect none)), .client (.probe (.call .answered)),
    .client (.probe (.call .answered))]

def asking : List (Client.Move Move StatusEvent) :=
  [.client (.probe (.connect none)), .client (.probe (.call .answered)),
    .client (.probe (.call .answered))]

def stopping : List (Client.Move Move UnmountEvent) :=
  [.client (.probe (.connect none)), .client (.probe (.call .answered)),
    .client (.probe (.call .answered)), .client (.shutdown .answered)] ++
  unmounting.tail.map (fun event => .system (.act 0 event)) ++
  [.client (.poll false), .client (.inspect Session.Sample.quiet)]

theorem commands_checked :
    letI : Uuid := Session.Sample.uuid
    letI : Sha256 := Session.Cache.Sample.sha256
    letI : Prost := Session.System.Sample.prost
    ((Transition.run
        (Client.step (step home) (mount home arguments.rootDigest arguments.mountpoint))
        (start Contents.absent, .createHome) mounting).bind fun mounted =>
      (Transition.run (Client.step (step home) (status home)) (mounted.1, .probing .connecting)
        asking).bind fun asked =>
      (Transition.run (Client.step (step home) (unmount home)) (mounted.1, .probing .connecting)
        stopping).map fun stopped =>
      (mounted.2 matches .returned (some 0) (.ok _), asked.2 matches .returned (.ok (.active _)),
        stopped.2 matches .returned (.ok _))) = some (true, true, true) := by
  decide +kernel

theorem commands_returned :
    letI : Uuid := Session.Sample.uuid
    letI : Sha256 := Session.Cache.Sample.sha256
    letI : Prost := Session.System.Sample.prost
    ∃ mounted asked stopped answered reported left,
      Transition.run
          (Client.step (step home) (mount home arguments.rootDigest arguments.mountpoint))
          (start Contents.absent, .createHome) mounting =
        some (mounted, .returned (some 0) (.ok answered)) ∧
      Transition.run (Client.step (step home) (status home)) (mounted, .probing .connecting)
        asking = some (asked, .returned (.ok (.active reported))) ∧
      Transition.run (Client.step (step home) (unmount home)) (mounted, .probing .connecting)
        stopping = some (stopped, .returned (.ok left)) := by
  obtain ⟨⟨mounted, mount⟩, hmount, h⟩ := Option.bind_eq_some_iff.mp commands_checked
  obtain ⟨⟨asked, status⟩, hstatus, h⟩ := Option.bind_eq_some_iff.mp h
  obtain ⟨⟨stopped, unmount⟩, hunmount, h⟩ := Option.map_eq_some_iff.mp h
  simp only [Prod.mk.injEq] at h
  obtain ⟨hmounted, hasked, hstopped⟩ := h
  split at hmounted
  · split at hasked
    · split at hstopped
      · exact ⟨_, _, _, _, _, _, hmount, hstatus, hunmount⟩
      · cases hstopped
    · cases hasked
  · cases hmounted

end Sample

theorem reached_absent [Uuid] [Sha256] [Prost] {home : PathBuf} :
    Reached home (start Contents.absent) :=
  ⟨Contents.absent, [], Sample.found_absent, rfl⟩

/-- What the command reports is what the daemon it started says. -/
theorem mount_success_sample :
    letI : Uuid := Session.Sample.uuid
    letI : Sha256 := Session.Cache.Sample.sha256
    letI : Prost := Session.System.Sample.prost
    ∃ before asked phase i process, Transition.run (Client.step (step Sample.home)
        (mount Sample.home Sample.arguments.rootDigest Sample.arguments.mountpoint))
        (start Contents.absent, .createHome) before = some (asked, phase) ∧
      Serves Sample.home asked i process ∧
      process.arguments.rootDigest = Sample.arguments.rootDigest := by
  let _ : Uuid := Session.Sample.uuid
  let _ : Sha256 := Session.Cache.Sample.sha256
  let _ : Prost := Session.System.Sample.prost
  obtain ⟨daemons, _, _, answered, _, _, hrun, -, -⟩ := Sample.commands_returned
  obtain ⟨before, after, asked, phase, i, process, -, hbefore, hserves, -, -, hdigest, -⟩ :=
    mount_success Sample.home Sample.arguments.rootDigest Sample.arguments.mountpoint _ daemons
      reached_absent Sample.mounting (some 0) answered hrun
  exact ⟨before, asked, phase, i, process, hbefore, hserves, hdigest⟩

section Failure

variable [Uuid] [Sha256] [Prost] {home : PathBuf} {daemons daemons' : Daemons}

/-- The one failure after which the daemon of a mount may go on. -/
def childUninspected (source : IoError) : CliError :=
  daemonStart s!"inspect daemon process: {source}"

/-- What a mount that failed leaves behind. -/
def Settled (s : Daemons × Mount) : Prop :=
  ∀ child error, s.2 = .returned (some child) (.error error) →
    s.1.ended child = true ∨ ∃ source, error = childUninspected source

theorem mount_settled {rootDigest : Digest} {mountpoint : PathBuf} {phase phase' : Mount}
    {event : MountEvent} (hwaits : event ≠ .wait true)
    (h : mount home rootDigest mountpoint daemons phase event = some (daemons', phase')) :
    Settled (daemons', phase') := by
  rintro child error rfl
  unfold mount at h
  split at h
  · split at h
    · cases h
    · split at h
      · cases h
      · obtain ⟨after, -, heq⟩ := Option.map_eq_some_iff.mp h
        cases heq
  · obtain ⟨⟨after, probed⟩, -, heq⟩ := Option.map_eq_some_iff.mp h
    obtain ⟨-, hnext⟩ := Prod.mk.inj heq
    dsimp only at hnext
    unfold ensureNoActiveDaemon at hnext
    split at hnext
    · cases hnext
    · cases hnext
    · split at hnext <;> cases hnext
  · split at h <;> cases h
  · split at h <;> cases h
  · split at h
    · cases h
    · split at h
      · obtain ⟨after, -, heq⟩ := Option.map_eq_some_iff.mp h
        cases heq
      · cases h
  · -- the daemon is polled
    split at h
    · next source =>
        cases h
        exact .inr ⟨source, rfl⟩
    · split at h
      · next hended =>
          cases h
          exact .inl hended
      · cases h
  · obtain ⟨⟨after, probed⟩, -, heq⟩ := Option.map_eq_some_iff.mp h
    obtain ⟨-, hnext⟩ := Prod.mk.inj heq
    dsimp only at hnext
    unfold probedReady at hnext
    split at hnext
    · cases hnext
    · cases hnext
    · split at hnext <;> cases hnext
  · split at h <;> cases h
  · split at h
    · cases h
    · obtain ⟨after, -, heq⟩ := Option.map_eq_some_iff.mp h
      cases heq
  · -- the daemon is reaped
    next failed =>
      split at h
      · next hended =>
          cases h
          exact .inl (hended.resolve_left fun hfailed => hwaits (by rw [hfailed]))
      · cases h
  · cases h

/-- When `rfs mount` fails after it has started a daemon, that daemon has ended, except when
the process could not be inspected or waited for. -/
theorem mount_failure (home : PathBuf) (rootDigest : Digest) (mountpoint : PathBuf)
    (daemons daemons' : Daemons) (moves : List (Client.Move Move MountEvent)) (child : ℕ)
    (error : CliError)
    (hrun : Transition.run (Client.step (step home) (mount home rootDigest mountpoint))
      (daemons, .createHome) moves = some (daemons', .returned (some child) (.error error))) :
    daemons'.ended child = true ∨ (∃ source, error = childUninspected source) ∨
      .client (.wait true) ∈ moves := by
  by_cases hfailed : .client (.wait true) ∈ moves
  · exact .inr (.inr hfailed)
  · rw [or_iff_left hfailed]
    have hstart : Settled (daemons, .createHome) := fun child error heq => by cases heq
    refine Transition.run_invariant_of_mem (P := fun move => move ≠ .client (.wait true))
      (fun s move s' hwaits hinv hstep => ?_) moves _ _
      (fun move hmove heq => hfailed (heq ▸ hmove)) hstart hrun child error rfl
    cases move with
    | system move =>
        obtain ⟨after, hafter, rfl⟩ := Option.map_eq_some_iff.mp hstep
        intro child error hphase
        exact (hinv child error hphase).imp_left (steps_of_step hafter).ended_stays
    | client event => exact mount_settled (fun heq => hwaits (by rw [heq])) hstep

end Failure

namespace Sample

/-- A daemon that finds no store fails before the mount has asked it anything. -/
def stranding : List (Client.Move Move MountEvent) :=
  [.client (.createHome none), .client (.probe (.connect (some "No such file or directory"))),
    .client (.locateDaemon none), .client (.openStdioLog none), .client (.spawn arguments none),
    .system (.act 0 (.connectCas (some "connection refused"))),
    .client (.tryWait none "exit status: 1")]

theorem stranding_failed :
    letI : Uuid := Session.Sample.uuid
    letI : Sha256 := Session.Cache.Sample.sha256
    letI : Prost := Session.System.Sample.prost
    ∃ daemons error, Transition.run
      (Client.step (step home) (mount home arguments.rootDigest arguments.mountpoint))
      (start Contents.absent, .createHome) stranding =
        some (daemons, .returned (some 0) (.error error)) := by
  refine ⟨_, _, rfl⟩

end Sample

/-- The daemon of that mount has ended. -/
theorem mount_failure_sample :
    letI : Uuid := Session.Sample.uuid
    letI : Sha256 := Session.Cache.Sample.sha256
    letI : Prost := Session.System.Sample.prost
    ∃ daemons error, Transition.run (Client.step (step Sample.home)
        (mount Sample.home Sample.arguments.rootDigest Sample.arguments.mountpoint))
        (start Contents.absent, .createHome) Sample.stranding =
          some (daemons, .returned (some 0) (.error error)) ∧
      (daemons.ended 0 = true ∨ (∃ source, error = childUninspected source) ∨
        .client (.wait true) ∈ Sample.stranding) := by
  let _ : Uuid := Session.Sample.uuid
  let _ : Sha256 := Session.Cache.Sample.sha256
  let _ : Prost := Session.System.Sample.prost
  obtain ⟨daemons, error, hrun⟩ := Sample.stranding_failed
  exact ⟨daemons, error, hrun, mount_failure Sample.home Sample.arguments.rootDigest
    Sample.arguments.mountpoint _ daemons Sample.stranding 0 error hrun⟩

/-! ### Status -/

section Reports

variable [Uuid] [Sha256] [Prost] {home : PathBuf} {daemons daemons' : Daemons}

omit [Sha256] [Prost] in
theorem database_of_inspect {contents : Contents} {sqlite : Sqlite} {info : Daemon.SessionInfo}
    (hok : contents.inspect home sqlite = .ok (some info)) :
    ∃ database file, contents.tree.bind Tree.database = some database ∧
      contents.databases[database]? = some file := by
  rw [Contents.inspect] at hok
  obtain ⟨-, hok⟩ := (Result.check_bind_eq_ok_iff _ _ _).mp hok
  split at hok
  · cases hok
  · obtain ⟨stored, hstored, -⟩ := (Result.bind_eq_ok_iff _ _ _).mp hok
    cases hfile : contents.sessionDatabase with
    | none =>
        rw [hfile, inspectStore] at hstored
        obtain ⟨-, hstored⟩ := (Result.check_bind_eq_ok_iff _ _ _).mp hstored
        cases hstored
    | some file =>
        obtain ⟨database, hdatabase, hfile⟩ := Option.bind_eq_some_iff.mp hfile
        exact ⟨database, file, hdatabase, hfile⟩

end Reports

section Unmounting

variable [Uuid] [Sha256] [Prost] {home : PathBuf} {daemons daemons' : Daemons}

inductive Unmounts (home : PathBuf) (daemons : Daemons) : Unmount → Daemons → Unmount → Prop
  | asking (probe next : Probe) (daemons' : Daemons) :
      Unmounts home daemons (.probing probe) daemons' (.probing next)
  | failed (phase : Unmount) (daemons' : Daemons) (error : CliError) :
      Unmounts home daemons phase daemons' (.returned (.error error))
  | answered (probe : Probe) (asked : ProbeEvent) (daemons' : Daemons) (i : ℕ)
      (status : SessionStatus)
      (hstep : probe.step home daemons asked = some (daemons', .done (.ok (i, status)))) :
      Unmounts home daemons (.probing probe) daemons' (.shutting i status)
  | reconnected (i j : ℕ) (status : SessionStatus) :
      Unmounts home daemons (.shutting i status) daemons (.shutting j status)
  | accepted (i : ℕ) (status : SessionStatus) (daemons' : Daemons) :
      Unmounts home daemons (.shutting i status) daemons' (.polling status)
  | running (status : SessionStatus) :
      Unmounts home daemons (.polling status) daemons (.elapsing status)
  | gone (status : SessionStatus) (hgone : daemons.gone status.daemonPid = true) :
      Unmounts home daemons (.polling status) daemons (.inspecting status true)
  | retried (status : SessionStatus) :
      Unmounts home daemons (.elapsing status) daemons (.polling status)
  | elapsed (status : SessionStatus) :
      Unmounts home daemons (.elapsing status) daemons (.inspecting status false)
  | closed (status : SessionStatus) (sqlite : Sqlite) (info : Daemon.SessionInfo)
      (hinspect : daemons.shared.contents.inspect home sqlite = .ok (some info))
      (hclosed : info.closed = true) :
      Unmounts home daemons (.inspecting status true) daemons (.returned (.ok status))

theorem unmounts_of_event {phase phase' : Unmount} {event : UnmountEvent}
    (h : unmount home daemons phase event = some (daemons', phase')) :
    Unmounts home daemons phase daemons' phase' := by
  unfold unmount at h
  split at h
  · next probe asked =>
      obtain ⟨⟨after, probed⟩, hstep, heq⟩ := Option.map_eq_some_iff.mp h
      obtain ⟨rfl, hnext⟩ := Prod.mk.inj heq
      dsimp only at hnext
      unfold probedUnmount at hnext
      split at hnext
      · exact hnext ▸ .asking probe _ after
      · next i status => exact hnext ▸ .answered probe asked after i status hstep
      · exact hnext ▸ .failed _ after _
  · next i status =>
      obtain ⟨j, -, heq⟩ := Option.map_eq_some_iff.mp h
      cases heq
      exact .reconnected i j status
  · next i status delivery =>
      obtain ⟨⟨reply, after⟩, -, h⟩ := Option.bind_eq_some_iff.mp h
      obtain ⟨result, -, h⟩ := Option.bind_eq_some_iff.mp h
      cases result with
      | error e =>
          cases h
          exact .failed _ _ _
      | ok value =>
          cases h
          exact .accepted i status _
  · next status running =>
      split at h
      · cases h
        exact .running status
      · split at h
        · next hgone =>
            cases h
            exact .gone status hgone
        · cases h
  · next status passed =>
      cases h
      cases passed with
      | true => exact .elapsed status
      | false => exact .retried status
  · next status exited sqlite =>
      cases h
      unfold unmounted
      split
      · exact .failed _ _ _
      · next session hinspect =>
          split
          · next hboth =>
              obtain ⟨rfl, hany⟩ := hboth
              cases session with
              | none => cases hany
              | some info => exact .closed status sqlite info hinspect hany
          · exact .failed _ _ _
  · cases h

/-- The status a command has got from the daemon it asked. -/
def Unmount.status : Unmount → Option SessionStatus
  | .probing _ => none
  | .shutting _ status => some status
  | .polling status => some status
  | .elapsing status => some status
  | .inspecting status _ => some status
  | .returned (.ok status) => some status
  | .returned (.error _) => none

theorem Unmounts.asked {phase phase' : Unmount} {status : SessionStatus}
    (h : Unmounts home daemons phase daemons' phase') (hno : phase.status ≠ some status)
    (hyes : phase'.status = some status) :
    ∃ (probe : Probe) (asked : ProbeEvent) (i : ℕ),
      probe.step home daemons asked = some (daemons', .done (.ok (i, status))) ∧
        phase' = .shutting i status := by
  cases h with
  | asking | failed => cases hyes
  | answered probe asked _ i answered hstep =>
      cases hyes
      exact ⟨probe, asked, i, hstep, rfl⟩
  | _ => exact absurd hyes hno

/-- What is known of an unmount once it has asked a daemon. -/
structure Follows (asked : Daemons) (i : ℕ) (process : Process) (answered : SessionStatus)
    (s : Daemons × Unmount) : Prop where
  there : s.1.threads[i]?.map Process.arguments = some process.arguments
  later : Later asked.shared.contents s.1.shared.contents
  asking : ∀ probe, s.2 ≠ .probing probe
  status : ∀ status, s.2.status = some status → status = answered
  exited : ∀ status, s.2 = .inspecting status true → s.1.ended i = true

theorem Follows.system {asked : Daemons} {i : ℕ} {process : Process} {answered : SessionStatus}
    {phase : Unmount} {move : Move} (h : Follows asked i process answered (daemons, phase))
    (hstep : step home daemons move = some daemons') :
    Follows asked i process answered (daemons', phase) where
  there := by
    obtain ⟨moves, hrun⟩ := run_of_step hstep
    exact arguments_of_run hrun h.there
  later := h.later.trans (steps_of_step hstep).later
  asking := h.asking
  status := h.status
  exited := fun status hphase => (steps_of_step hstep).ended_stays (h.exited status hphase)

omit [Uuid] [Sha256] [Prost] in
theorem ended_of_gone {i : ℕ} {arguments : Arguments}
    (hi : daemons.threads[i]?.map Process.arguments = some arguments)
    (hgone : daemons.gone arguments.pid = true) : daemons.ended i = true := by
  obtain ⟨process, hprocess, rfl⟩ := Option.map_eq_some_iff.mp hi
  rw [Daemons.gone, decide_eq_true_iff] at hgone
  obtain hlarge | hall := hgone
  · exact absurd process.arguments.pid_fits (Nat.not_lt.mpr hlarge)
  · have hmember := List.all_eq_true.mp hall process (List.mem_of_getElem? hprocess)
    rw [Daemons.ended, hprocess, Option.bind_some]
    simpa using hmember

theorem Follows.client {asked : Daemons} {i : ℕ} {process : Process} {answered : SessionStatus}
    {phase phase' : Unmount} {event : UnmountEvent}
    (hpid : answered.daemonPid = process.arguments.pid)
    (h : Follows asked i process answered (daemons, phase))
    (hevent : unmount home daemons phase event = some (daemons', phase')) :
    Follows asked i process answered (daemons', phase') := by
  obtain ⟨moves, hrun⟩ := unmount_conforms daemons phase event daemons' phase' hevent
  have hthere := arguments_of_run hrun h.there
  have hlater := h.later.trans (later_of_run hrun)
  cases unmounts_of_event hevent with
  | asking probe => exact absurd rfl (h.asking probe)
  | answered probe => exact absurd rfl (h.asking probe)
  | gone status hgone =>
      refine ⟨hthere, hlater, (fun _ heq => by cases heq), h.status, fun _ _ => ?_⟩
      refine ended_of_gone hthere ?_
      rw [← hpid, ← h.status status rfl]
      exact hgone
  | failed _ _ error =>
      exact ⟨hthere, hlater, (fun _ heq => by cases heq), (fun _ heq => by cases heq),
        fun _ heq => by cases heq⟩
  | _ =>
      exact ⟨hthere, hlater, (fun _ heq => by cases heq), h.status, fun _ heq => by cases heq⟩

omit [Uuid] [Sha256] [Prost] in
/-- The database of a later tree was made by the daemon that had made the earlier one, or by
one that had made none yet. -/
theorem Later.maker {asked contents : Contents} {i database d : ℕ} {file file' : DatabaseFile}
    (hlater : Later asked contents) (hsingle : Single contents.databases)
    (hnamed : asked.tree.bind Tree.database = some database)
    (hfile : asked.databases[database]? = some file) (horigin : file.origin = .daemon i)
    (hnamed' : contents.tree.bind Tree.database = some d)
    (hfile' : contents.databases[d]? = some file') :
    ∃ j, file'.origin = .daemon j ∧
      (j = i ∨ ∀ file ∈ asked.databases, file.origin ≠ .daemon j) := by
  obtain hsame | hnew := hlater.named d hnamed'
  · rw [hnamed, Option.some.injEq] at hsame
    subst hsame
    obtain ⟨kept, hkept, hmaker⟩ := hlater.origin database file hfile
    rw [hfile', Option.some.injEq] at hkept
    exact ⟨i, by rw [hkept, hmaker, horigin], .inl rfl⟩
  · obtain ⟨j, hj⟩ := hlater.made d file' hnew hfile'
    refine ⟨j, hj, .inr fun earlier hearlier heq => ?_⟩
    obtain ⟨e, he⟩ := List.mem_iff_getElem?.mp hearlier
    obtain ⟨kept, hkept, hmaker⟩ := hlater.origin e earlier he
    have hde := hsingle e d kept file' j hkept hfile' (hmaker.trans heq) hj
    have hlt := (List.getElem?_eq_some_iff.mp he).1
    omega

/-- What `inspect` finds closed is a session a daemon closed: the one whose database the session
tree named before, or one that had no database then. -/
theorem closer_of_inspect {asked : Daemons} {i database : ℕ} {file : DatabaseFile}
    {sqlite : Sqlite} {info : Daemon.SessionInfo} (hreached : Reached home daemons)
    (hlater : Later asked.shared.contents daemons.shared.contents)
    (hnamed : asked.shared.contents.tree.bind Tree.database = some database)
    (hfile : asked.shared.contents.databases[database]? = some file)
    (horigin : file.origin = .daemon i)
    (hinspect : daemons.shared.contents.inspect home sqlite = .ok (some info))
    (hclosed : info.closed = true) :
    ∃ j closer, (∃ file, daemons.shared.contents.sessionDatabase = some file ∧
        file.origin = .daemon j) ∧ daemons.threads[j]? = some closer ∧
      closer.phase.recordsClose = true ∧
      (j = i ∨ ∀ file ∈ asked.shared.contents.databases, file.origin ≠ .daemon j) := by
  have hsound := sound_of_reached hreached
  obtain ⟨d, now, hnow, hd⟩ := database_of_inspect hinspect
  obtain ⟨j, hmaker, hwho⟩ := hlater.maker hsound.single hnamed hfile horigin hnow hd
  have hdatabase : daemons.shared.contents.sessionDatabase = some now := by
    rw [Contents.sessionDatabase, hnow, Option.bind_some, hd]
  obtain ⟨closer, hcloser, -⟩ := hsound.filed d now j hd hmaker
  obtain ⟨-, hinfo⟩ := retained_of_inspect hreached hdatabase hmaker hcloser hinspect
  rw [Option.some.injEq] at hinfo
  subst hinfo
  exact ⟨j, closer, ⟨now, hdatabase, hmaker⟩, hcloser, hclosed, hwho⟩

/-- When `rfs unmount` succeeds, a daemon that served said what is reported, that daemon has
ended, and the session that was then retained had been closed by the daemon that opened it:
the one that was asked, or one that came to the home later. -/
theorem unmount_success (home : PathBuf) (daemons daemons' : Daemons)
    (hreached : Reached home daemons) (moves : List (Client.Move Move UnmountEvent))
    (answered : SessionStatus)
    (hrun : Transition.run (Client.step (step home) (unmount home))
      (daemons, .probing .connecting) moves = some (daemons', .returned (.ok answered))) :
    ∃ first second third asked inspected phase phase' i process j closer,
      moves = first ++ second ++ third ∧
      Transition.run (Client.step (step home) (unmount home)) (daemons, .probing .connecting)
        first = some (asked, phase) ∧
      Transition.run (Client.step (step home) (unmount home)) (asked, phase) second =
        some (inspected, phase') ∧
      Serves home asked i process ∧ answered = process.status home ∧
      inspected.ended i = true ∧
      (∃ file, inspected.shared.contents.sessionDatabase = some file ∧
        file.origin = .daemon j) ∧
      inspected.threads[j]? = some closer ∧ closer.phase.recordsClose = true ∧
      (j = i ∨ ∀ file ∈ asked.shared.contents.databases, file.origin ≠ .daemon j) := by
  obtain ⟨first, event, rest, ⟨asked, phase⟩, ⟨asked', phase'⟩, rfl, hfirst, hno, hevent, hyes,
    hrest⟩ := Client.exists_event
      (P := fun phase : Unmount => phase.status = some answered) hrun (fun heq => by cases heq)
      rfl
  dsimp only at hno hevent hyes
  have hasked : Reached home asked := hreached.beside unmount_conforms hfirst
  obtain ⟨probe, question, i, hstep, rfl⟩ := (unmounts_of_event hevent).asked hno hyes
  obtain ⟨process, hserves, hstatus⟩ := Probe.step_done hasked hstep
  have hfollows : Follows asked i process answered (asked', .shutting i answered) := by
    obtain ⟨steps, hsteps⟩ := Probe.step_conforms hstep
    refine ⟨arguments_of_run hsteps (by rw [hserves.there, Option.map_some]),
      later_of_run hsteps, (fun _ heq => by cases heq), (fun status heq => ?_),
      fun _ heq => by cases heq⟩
    cases heq
    rfl
  obtain ⟨second, last, third, ⟨inspected, reading⟩, ⟨after, returned⟩, rfl, hsecond, hunread,
    hlast, hreturned, -⟩ := Client.exists_event
      (P := fun phase : Unmount => phase = .returned (.ok answered)) hrest
      (fun heq => by cases heq) rfl
  dsimp only at hunread hlast hreturned
  subst hreturned
  have hfollows' : Follows asked i process answered (inspected, reading) :=
    Client.run_invariant (I := Follows asked i process answered)
      (fun _ _ _ _ hinv hstep => hinv.system hstep)
      (fun _ _ _ _ _ hinv hstep => hinv.client (by rw [hstatus]; rfl) hstep) hfollows hsecond
  have hbetween : Transition.run (Client.step (step home) (unmount home)) (asked, phase)
      (.client event :: second) = some (inspected, reading) :=
    (Transition.run_cons_eq_some_iff _ _ _ _ _).mpr ⟨_, hevent, hsecond⟩
  have hinspected : Reached home inspected := hasked.beside unmount_conforms hbetween
  obtain ⟨control, database, session, hserving, -⟩ := hserves.serving
  have howns : Owns i process asked.shared.contents database session :=
    (sound_of_reached hasked).owns hserves.there hserves.holds (by rw [hserving]; rfl)
  cases unmounts_of_event hlast with
  | closed _ sqlite info hinspect hclosed =>
      obtain ⟨socket, htree, -⟩ := howns.tree
      obtain ⟨file, hfile, horigin, -⟩ := howns.file
      obtain ⟨j, closer, hnow, hcloser, hcloses, hwho⟩ := closer_of_inspect hinspected
        hfollows'.later (by rw [htree]; rfl) hfile horigin hinspect hclosed
      refine ⟨first, .client event :: second, .client last :: third, asked, inspected, phase, _,
        i, process, j, closer, ?_, hfirst, hbetween, hserves, hstatus,
        hfollows'.exited answered rfl, hnow, hcloser, hcloses, hwho⟩
      rw [List.append_assoc, List.cons_append]

end Unmounting

/-- A daemon that serves is asked to stop, and it has closed its session. -/
theorem unmount_success_sample :
    letI : Uuid := Session.Sample.uuid
    letI : Sha256 := Session.Cache.Sample.sha256
    letI : Prost := Session.System.Sample.prost
    ∃ (inspected : Daemons) (i j : ℕ) (closer : Process), inspected.ended i = true ∧
      inspected.threads[j]? = some closer ∧ closer.phase.recordsClose = true := by
  let _ : Uuid := Session.Sample.uuid
  let _ : Sha256 := Session.Cache.Sample.sha256
  let _ : Prost := Session.System.Sample.prost
  obtain ⟨daemons, _, daemons', _, _, left, hmount, -, hrun⟩ := Sample.commands_returned
  have hreached : Reached Sample.home daemons :=
    reached_absent.beside (mount_conforms _ _) hmount
  obtain ⟨-, -, -, -, inspected, -, -, i, -, j, closer, -, -, -, -, -, hended, -, hcloser,
    hcloses, -⟩ := unmount_success Sample.home daemons daemons' hreached Sample.stopping left
      hrun
  exact ⟨inspected, i, j, closer, hended, hcloser, hcloses⟩

end Home

end RemoteFs
