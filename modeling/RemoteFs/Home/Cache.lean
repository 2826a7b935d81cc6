import RemoteFs.Home.Exclusive

/-!
# The cache of a home

The verified cache is beside the session tree and outlives it. Over the whole life of a home,
with all its sessions, failures and kills, the files at final paths are what their paths name,
none of them is changed or removed, and every one that was added was admitted once, by one call
of one session.
-/

namespace RemoteFs

namespace Session

namespace System

variable [Uuid] [Sha256] [Prost] {root : PathBuf}

theorem Steps.cache_run {s s' : State} (h : Steps root s s') :
    ∃ moves, Transition.run (Cache.step root) s.cache moves = some s'.cache := by
  cases h with
  | proceed i env clock request phase outcome hi hadvance =>
      have hadvances := advances_of_advance hadvance
      obtain ⟨hcache, -⟩ | ⟨digest, asked, hcache, -⟩ := hadvances.cache_cases
      · exact ⟨[], by rw [hcache, Transition.run_nil]⟩
      · exact ⟨[.spawn (digest, asked)], by rw [hcache]; rfl⟩
  | cache call action cache hcache =>
      exact ⟨[.act call action], (Transition.run_cons_eq_some_iff _ _ _ _ _).mpr
        ⟨cache, hcache, rfl⟩⟩
  | _ => exact ⟨[], rfl⟩

end System

namespace Cache

variable [Sha256] {root : PathBuf}

theorem Reporting.run {initial : PathBuf → Option Bytes} {state state' : State}
    {moves : List Move} (h : Reporting root initial state)
    (hrun : Transition.run (Cache.step root) state moves = some state') :
    Reporting root initial state' :=
  Transition.run_invariant (fun _ _ _ hinv hstep => hinv.step hstep) moves state state' h hrun

theorem Reporting.files {initial : PathBuf → Option Bytes} {state state' : State}
    {moves : List Move} (h : Reporting root initial state)
    (hverified : Verified root state.shared.files)
    (hrun : Transition.run (Cache.step root) state moves = some state') :
    Verified root state'.shared.files ∧ FilesGrow state.shared.files state'.shared.files := by
  have hsound : Sound root state := ⟨hverified, h.filled.pending⟩
  refine ⟨?_, Transition.run_rel (R := fun s s' => FilesGrow s.shared.files s'.shared.files)
    (fun s => .refl s.shared.files)
    (fun s t u (h : FilesGrow s.shared.files t.shared.files) h' => h.trans h')
    (fun s move s' (hinv : Sound root s) hstep => (hinv.step hstep).1)
    (fun s move s' (hinv : Sound root s) hstep => (hinv.step hstep).2) moves state state'
    hsound hrun⟩
  exact (Transition.run_invariant (I := Sound root)
    (fun _ _ _ hinv hstep => (hinv.step hstep).1) moves state state' hsound hrun).verified

end Cache

end Session

namespace Home

open Session.Cache (Verified FilesGrow Added)

/-- The entries for a digest that calls of a daemon's session have admitted. -/
def Phase.admissions (digest : Digest) (phase : Phase) : ℕ :=
  match phase.session with
  | some (_, session) =>
      session.cache.threads.countP (Session.Cache.Call.createdEntry digest)
  | none => 0

/-- The entries for a digest that all daemons have admitted. -/
def Daemons.admissions (daemons : Daemons) (digest : Digest) : ℕ :=
  (daemons.threads.map fun process => process.phase.admissions digest).sum

section Cache

variable [Uuid] [Sha256] [Prost] {home : PathBuf} {index : ℕ} {lockFree : Bool}
  {arguments : Arguments} {contents contents' : Contents} {phase phase' : Phase}

/-- What a step of a daemon does to the cache: nothing, or what a run of the cache does from
the state its session has. -/
inductive Caches (home : PathBuf) (contents contents' : Contents) (phase phase' : Phase) : Prop
  | kept (hfiles : contents'.cacheFiles = contents.cacheFiles)
      (hadmissions : ∀ digest, phase'.admissions digest = phase.admissions digest)
  | ran (database : ℕ) (session session' : Session.System.State)
      (moves : List Session.Cache.Move) (hphase : phase.session = some (database, session))
      (hholding : phase.holding = true) (hphase' : phase'.session = some (database, session'))
      (hfiles : contents'.cacheFiles = session'.cache.shared.files)
      (hrun : Transition.run (Session.Cache.step (SessionLayout.new home).cache) session.cache
        moves = some session'.cache)

theorem Proceeds.caches
    (h : Proceeds home index lockFree arguments contents phase contents' phase')
    (hattach : ∀ database session, phase.session = some (database, session) →
      phase.holding = true → attach contents database session = session) :
    Caches home contents contents' phase phase' := by
  cases h with
  | initialized => exact .kept rfl fun _ => rfl
  | moved _ database session session' move hphase haccepts hstep =>
      have hholding := Phase.holding_of_accepts haccepts
      rw [hattach database session hphase hholding] at hstep
      obtain ⟨moves, hrun⟩ := (Session.System.steps_of_step hstep).cache_run
      exact .ran database session session' moves hphase hholding
        (Phase.session_withSession hphase session') rfl hrun
  | closed control control' database session called session' env clock result hcloses hcall
      hclose =>
      have hholding := keepsSession_of_closes hcloses
      rw [hattach database session rfl hholding] at hcall
      obtain ⟨first, hfirst⟩ := (Session.System.steps_of_step hcall).cache_run
      obtain ⟨second, hsecond⟩ := (Session.System.steps_of_step hclose).cache_run
      refine .ran database session session' (first ++ second) rfl hholding rfl rfl ?_
      rw [Transition.run_append _ _ _ _ _ hfirst, hsecond]
  | socketRemoved control control' database session contents' removed hcontents =>
      refine .kept ?_ fun _ => rfl
      obtain rfl | rfl := hcontents <;> rfl
  | _ => exact .kept rfl fun _ => rfl

omit [Uuid] [Prost] in
/-- What a session has admitted in a run is what is new on disk. -/
theorem admissions_run {root : PathBuf} {initial : PathBuf → Option Bytes}
    {session session' : Session.System.State} {moves : List Session.Cache.Move}
    (hreporting : ∃ opened, Session.Cache.Reporting root opened session.cache)
    (hkept : FilesGrow initial session.cache.shared.files)
    (hrun : Transition.run (Session.Cache.step root) session.cache moves = some session'.cache)
    (hverified : Verified root session.cache.shared.files) (digest : Digest) :
    session'.cache.threads.countP (Session.Cache.Call.createdEntry digest) +
        (if Added root initial session.cache.shared.files digest then 1 else 0) =
      session.cache.threads.countP (Session.Cache.Call.createdEntry digest) +
        if Added root initial session'.cache.shared.files digest then 1 else 0 := by
  obtain ⟨opened, hbefore⟩ := hreporting
  have hafter := hbefore.run hrun
  obtain ⟨-, hgrow⟩ := hbefore.files hverified hrun
  rw [hbefore.filled.created, hafter.filled.created]
  by_cases hthere : session.cache.shared.files (Session.Cache.path root digest) = none
  · -- nothing was there at any time before
    have hopened : opened (Session.Cache.path root digest) = none :=
      not_not.mp fun hne => hbefore.filled.kept digest hne hthere
    have hinitial : initial (Session.Cache.path root digest) = none := by
      cases hfile : initial (Session.Cache.path root digest) with
      | none => rfl
      | some bytes =>
          rw [hkept _ bytes hfile] at hthere
          cases hthere
    simp only [Added, hopened, hinitial, hthere, ne_eq, not_true_eq_false, and_false, if_false,
      true_and]
    omega
  · obtain ⟨bytes, hbytes⟩ := Option.ne_none_iff_exists'.mp hthere
    have hthere' : session'.cache.shared.files (Session.Cache.path root digest) ≠ none := by
      rw [hgrow _ bytes hbytes]
      exact Option.some_ne_none bytes
    simp only [Added, hthere, hthere', ne_eq, not_false_eq_true, and_true]

variable (home) in
/-- What is known of the cache since the home was found. -/
structure History (initial : PathBuf → Option Bytes) (daemons : Daemons) : Prop where
  verified : Verified (SessionLayout.new home).cache daemons.shared.contents.cacheFiles
  kept : FilesGrow initial daemons.shared.contents.cacheFiles
  admitted : ∀ digest, daemons.admissions digest =
    if Added (SessionLayout.new home).cache initial daemons.shared.contents.cacheFiles digest
    then 1 else 0

variable {initial : PathBuf → Option Bytes} {daemons daemons' : Daemons}

omit [Uuid] [Sha256] [Prost] in
theorem admissions_set {i : ℕ} {process : Process}
    (hi : daemons.threads[i]? = some process) (process' : Process) (digest : Digest) :
    ((daemons.threads.set i process').map fun process =>
        process.phase.admissions digest).sum + process.phase.admissions digest =
      daemons.admissions digest + process'.phase.admissions digest :=
  Pool.sum_map_set (fun process => process.phase.admissions digest) hi process'

theorem History.steps (h : History home initial daemons) (hsound : Sound daemons)
    (hrunning : AllRunning home daemons) (hsteps : Steps home daemons daemons') :
    History home initial daemons' ∧
      FilesGrow daemons.shared.contents.cacheFiles daemons'.shared.contents.cacheFiles := by
  cases hsteps with
  | started arguments =>
      refine ⟨⟨h.verified, h.kept, fun digest => ?_⟩, .refl _⟩
      rw [Daemons.admissions, List.map_append, List.sum_append]
      exact h.admitted digest
  | homed => exact ⟨⟨h.verified, h.kept, h.admitted⟩, .refl _⟩
  | proceeded i process contents' phase' hi halive hproceeds =>
      have hholds := Process.holds_of_alive halive
      have hcaches := hproceeds.caches fun database session hphase hholding =>
        hsound.attach_eq hi (hholds.trans hholding) hphase
      cases hcaches with
      | kept hfiles hadmissions =>
          refine ⟨⟨?_, ?_, fun digest => ?_⟩, ?_⟩
          · dsimp only
            rw [hfiles]
            exact h.verified
          · dsimp only
            rw [hfiles]
            exact h.kept
          · have hset := admissions_set hi { process with phase := phase' } digest
            rw [hadmissions, Nat.add_right_cancel_iff] at hset
            rw [Daemons.admissions]
            dsimp only
            rw [hset, hfiles]
            exact h.admitted digest
          · dsimp only
            rw [hfiles]
            exact .refl _
      | ran database session session' moves hphase hholding hphase' hfiles hrun =>
          have hhosts := (hsound.fits i process hi (hholds.trans hholding)).hosts hphase
          have hcache := hhosts.cacheFiles
          obtain ⟨hopened, -⟩ := (hrunning i process hi).opened database session hphase
          obtain ⟨⟨opened, horderly⟩, -, -⟩ := Session.System.reached_accounted hopened.reached
          have hverified := h.verified
          rw [hcache] at hverified
          obtain ⟨hverified', hgrow⟩ := horderly.cache.files hverified hrun
          have hkept := h.kept
          rw [hcache] at hkept
          refine ⟨⟨?_, ?_, fun digest => ?_⟩, ?_⟩
          · dsimp only
            rw [hfiles]
            exact hverified'
          · dsimp only
            rw [hfiles]
            exact hkept.trans hgrow
          · have hset := admissions_set hi { process with phase := phase' } digest
            have hbefore : process.phase.admissions digest =
                session.cache.threads.countP (Session.Cache.Call.createdEntry digest) := by
              rw [Phase.admissions, hphase]
            have hafter : phase'.admissions digest =
                session'.cache.threads.countP (Session.Cache.Call.createdEntry digest) := by
              rw [Phase.admissions, hphase']
            have hdelta := admissions_run ⟨opened, horderly.cache⟩ hkept hrun hverified digest
            have htotal := h.admitted digest
            rw [hcache] at htotal
            rw [Daemons.admissions]
            dsimp only at hset ⊢
            rw [hfiles]
            rw [hbefore, hafter] at hset
            omega
          · dsimp only
            rw [hfiles, hcache]
            exact hgrow
  | ended i process contents' exit hi halive hends =>
      refine ⟨⟨?_, ?_, fun digest => ?_⟩, ?_⟩
      · dsimp only
        rw [hends.cacheFiles]
        exact h.verified
      · dsimp only
        rw [hends.cacheFiles]
        exact h.kept
      · have hset := admissions_set hi { process with exit := some exit } digest
        rw [Nat.add_right_cancel_iff] at hset
        rw [Daemons.admissions]
        dsimp only
        rw [hset, hends.cacheFiles]
        exact h.admitted digest
      · dsimp only
        rw [hends.cacheFiles]
        exact .refl _

/-- Over the whole life of a home its cache holds what it says, no entry of it is changed or
removed, and what was added for a digest was admitted by one call of one daemon. -/
theorem home_cache (home : PathBuf) (contents : Contents) (moves later : List Move)
    (daemons daemons' : Daemons) (hfound : contents.Found)
    (hverified : Verified (SessionLayout.new home).cache contents.cacheFiles)
    (hrun : Transition.run (step home) (start contents) moves = some daemons)
    (hlater : Transition.run (step home) daemons later = some daemons') :
    Verified (SessionLayout.new home).cache daemons.shared.contents.cacheFiles ∧
      (∀ path bytes, daemons.shared.contents.cacheFiles path = some bytes →
        daemons'.shared.contents.cacheFiles path = some bytes) ∧
      ∀ digest, daemons.admissions digest =
        if Added (SessionLayout.new home).cache contents.cacheFiles
          daemons.shared.contents.cacheFiles digest then 1 else 0 := by
  let Known := fun daemons =>
    (Sound daemons ∧ AllRunning home daemons) ∧ History home contents.cacheFiles daemons
  have hknown : ∀ s move s', Known s → step home s move = some s' → Known s' := by
    rintro s move s' ⟨⟨hsound, hrunning⟩, hhistory⟩ hstep
    have hsteps := steps_of_step hstep
    exact ⟨⟨hsound.steps hsteps, hrunning.steps hsound hsteps⟩,
      (hhistory.steps hsound hrunning hsteps).1⟩
  have hgrow : ∀ s move s', Known s → step home s move = some s' →
      FilesGrow s.shared.contents.cacheFiles s'.shared.contents.cacheFiles := by
    rintro s move s' ⟨⟨hsound, hrunning⟩, hhistory⟩ hstep
    exact (hhistory.steps hsound hrunning (steps_of_step hstep)).2
  have hstart : Known (start contents) := by
    refine ⟨⟨sound_start hfound, fun i process hi => by cases hi⟩, hverified, .refl _,
      fun digest => ?_⟩
    rw [if_neg (fun hadded => hadded.2 hadded.1)]
    rfl
  have hreached := Transition.run_invariant hknown moves _ _ hstart hrun
  refine ⟨hreached.2.verified, ?_, hreached.2.admitted⟩
  exact Transition.run_rel
    (R := fun s s' => FilesGrow s.shared.contents.cacheFiles s'.shared.contents.cacheFiles)
    (fun s => .refl s.shared.contents.cacheFiles)
    (fun s t u (h : FilesGrow s.shared.contents.cacheFiles t.shared.contents.cacheFiles) h' =>
      h.trans h') hknown hgrow later daemons daemons' hreached hlater

end Cache

namespace Sample

/-- The opening of a daemon that finds the session of another. -/
def replacing : List Event :=
  [.acquireLock none, .truncateRecord none, .writeRecord none, .removeEntry .database,
    .removeEntry .overlay, .removeEntry .socket] ++ opening.drop 6

/-- The first load, with the blob of the root found in the cache. -/
def revisiting : List Event :=
  [.session (.lock 0), .session (.proceed 0 Session.calm 0),
    .session (.cache 0 .check), .session (.cache 0 (.read Session.Cache.Sample.reads))] ++
    List.replicate 4 (.session (.proceed 0 Session.calm 0)) ++
    [.rootLoaded, .mountFuse none, .bindSocket none, .restrictSocket none]

/-- The daemon that serves is killed, and the other serves with the cache it left. -/
def laterMoves : List Move :=
  .act 0 .kill :: (replacing ++ revisiting).map (.act 1)

theorem moves_cached :
    letI : Uuid := Session.Sample.uuid
    letI : Sha256 := Session.Cache.Sample.sha256
    letI : Prost := Session.System.Sample.prost
    ((Transition.run (step home) (start Contents.absent) moves).bind fun daemons =>
      (Transition.run (step home) daemons laterMoves).map fun daemons' =>
        (daemons'.shared.lock, daemons.shared.contents.cacheFiles (Session.Cache.path
          (SessionLayout.new home).cache Session.Cache.Sample.digest))) =
      some (some 1, some [104, 105]) := by
  decide +kernel

end Sample

/-- The blob of the root was admitted once, and is still there and admitted by no one else when
another daemon serves. -/
theorem home_cache_sample :
    letI : Uuid := Session.Sample.uuid
    letI : Sha256 := Session.Cache.Sample.sha256
    letI : Prost := Session.System.Sample.prost
    ∃ daemons daemons',
      Transition.run (step Sample.home) (start Contents.absent) Sample.moves = some daemons ∧
      Transition.run (step Sample.home) daemons Sample.laterMoves = some daemons' ∧
      daemons'.shared.lock = some 1 ∧
      Verified (SessionLayout.new Sample.home).cache daemons'.shared.contents.cacheFiles ∧
      daemons'.shared.contents.cacheFiles (Session.Cache.path
        (SessionLayout.new Sample.home).cache Session.Cache.Sample.digest) = some [104, 105] ∧
      daemons.admissions Session.Cache.Sample.digest = 1 ∧
      daemons'.admissions Session.Cache.Sample.digest = 1 := by
  let _ : Uuid := Session.Sample.uuid
  let _ : Sha256 := Session.Cache.Sample.sha256
  let _ : Prost := Session.System.Sample.prost
  obtain ⟨daemons, hrun, hrest⟩ := Option.bind_eq_some_iff.mp Sample.moves_cached
  obtain ⟨daemons', hlater, heq⟩ := Option.map_eq_some_iff.mp hrest
  obtain ⟨hlock, hbytes⟩ := Prod.mk.inj heq
  obtain ⟨-, hkept, hadmitted⟩ := home_cache Sample.home Contents.absent Sample.moves
    Sample.laterMoves daemons daemons' Sample.found_absent
    (fun digest bytes hfile => by cases hfile) hrun hlater
  obtain ⟨hverified', -, hadmitted'⟩ := home_cache Sample.home Contents.absent
    (Sample.moves ++ Sample.laterMoves) [] daemons' daemons' Sample.found_absent
    (fun digest bytes hfile => by cases hfile)
    ((Transition.run_append _ _ _ _ _ hrun).trans hlater) rfl
  have hbytes' := hkept _ _ hbytes
  refine ⟨daemons, daemons', hrun, hlater, hlock, hverified', hbytes', ?_, ?_⟩
  · rw [hadmitted, if_pos]
    exact ⟨rfl, by rw [hbytes]; exact Option.some_ne_none _⟩
  · rw [hadmitted', if_pos]
    exact ⟨rfl, by rw [hbytes']; exact Option.some_ne_none _⟩

end Home

end RemoteFs
