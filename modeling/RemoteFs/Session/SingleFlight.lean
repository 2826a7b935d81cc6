import RemoteFs.Session.CacheIntegrity

/-!
# Single-flight downloads

`Coordinated` is the invariant of the download locks: the calls of a digest that
have joined a lock and not left it have joined the entry of the map, the entry
counts them, and the gate of a lock names the one call that holds it. A call that
panicked never leaves.

`Filled` counts on top of it. While a call fills the cache for a digest the entry is
absent, so a digest is admitted once, and one call reports the download.
-/

namespace RemoteFs

namespace Session

namespace Cache

/-- A call of the digest that has joined a lock and not left it. -/
def Call.isMember (digest : Digest) (call : Call) : Bool :=
  call.digest = digest ∧ call.phase.joined ≠ none

/-- The map of download locks counts the calls. -/
structure Coordinated (state : State) : Prop where
  unpoisoned : state.shared.poisoned = false
  joined : ∀ (i : ℕ) call lock, state.threads[i]? = some call →
    call.phase.joined = some lock → state.shared.downloadLocks call.digest = some lock
  entry : ∀ digest lock, state.shared.downloadLocks digest = some lock →
    ∃ l, state.shared.heap[lock]? = some l ∧ 0 < l.participants ∧
      l.participants = state.threads.countP (Call.isMember digest)
  injective : ∀ d e lock, state.shared.downloadLocks d = some lock →
    state.shared.downloadLocks e = some lock → d = e
  holder : ∀ (i : ℕ) call lock, state.threads[i]? = some call →
    call.phase.holding = some lock →
      ∃ l, state.shared.heap[lock]? = some l ∧ l.gate = some i

/-! ### Coordination in one step -/

/-- What a step does to the locks and to the place of a call among them. -/
inductive Coordinates (index : ℕ) (shared : Shared) (call : Call) (shared' : Shared)
    (call' : Call) : Prop
  | stay (hmap : shared'.downloadLocks = shared.downloadLocks)
      (hpoisoned : shared'.poisoned = shared.poisoned) (hheap : shared'.heap = shared.heap)
      (hjoined : call'.phase.joined = call.phase.joined)
      (hholding : call'.phase.holding = call.phase.holding)
  | join (lock : ℕ) (hacquire : shared.acquireDownloadLock call.digest = .ok (lock, shared'))
      (hbefore : call.phase.joined = none) (hjoined : call'.phase.joined = some lock)
      (hfree : call.phase.holding = none) (hholding : call'.phase.holding = none)
  | enter (lock : ℕ) (l : DownloadLock) (hlock : shared.heap[lock]? = some l)
      (hgate : l.gate = none)
      (hshared : shared' =
        { shared with heap := shared.heap.set lock { l with gate := some index } })
      (hbefore : call.phase.joined = some lock) (hjoined : call'.phase.joined = some lock)
      (hfree : call.phase.holding = none) (hholding : call'.phase.holding = some lock)
  | drop (lock : ℕ) (panicking : Bool) (hshared : shared' = shared.dropGuard lock panicking)
      (hbefore : call.phase.holding = some lock)
      (hjoined : call'.phase.joined = call.phase.joined)
      (hholding : call'.phase.holding = none)
  | leave (lock : ℕ)
      (hrelease : shared.releaseDownloadLock call.digest lock = some (.ok shared'))
      (hbefore : call.phase.joined = some lock) (hjoined : call'.phase.joined = none)
      (hholding : call'.phase.holding = call.phase.holding)
  | poisoned (h : shared.poisoned = true)
  | underflow (lock : ℕ) (hbefore : call.phase.joined = some lock)
      (h : shared.releaseDownloadLock call.digest lock = none)

theorem holding_of_filling {phase : Phase} {lock : ℕ} (h : phase.filling = some lock) :
    phase.holding = some lock ∧ phase.joined = some lock := by
  cases phase <;> cases h <;> exact ⟨rfl, rfl⟩

theorem Call.ensure_unjoined (call : Call) (result : Except SessionError Bool) :
    (call.ensure result).phase.joined = none ∧ (call.ensure result).phase.holding = none := by
  cases result <;> exact ⟨rfl, rfl⟩

section Steps

variable [Sha256] {root : PathBuf} {index : ℕ} {action : Action} {shared shared' : Shared}
  {call call' : Call}

theorem Advances.digest_eq (h : Advances root index action shared call shared' call') :
    call'.digest = call.digest := by
  cases h <;> rfl

theorem Advances.coordinates (h : Advances root index action shared call shared' call') :
    Coordinates index shared call shared' call' := by
  cases h with
  | hit hphase => exact .stay rfl rfl rfl (by rw [hphase]; rfl) (by rw [hphase]; rfl)
  | miss hphase => exact .stay rfl rfl rfl (by rw [hphase]; rfl) (by rw [hphase]; rfl)
  | coordinateFailed e hphase hacquire => exact .poisoned (poisoned_of_acquire_error hacquire)
  | acquire lock _ hphase hacquire =>
      exact .join lock hacquire (by rw [hphase]; rfl) rfl (by rw [hphase]; rfl) rfl
  | enter lock l hphase hlock hgate =>
      exact .enter lock l hlock hgate rfl (by rw [hphase]; rfl) rfl (by rw [hphase]; rfl) rfl
  | refuse lock l hphase hlock hgate =>
      exact .enter lock l hlock hgate rfl (by rw [hphase]; rfl) rfl (by rw [hphase]; rfl) rfl
  | recheckHit lock hphase => exact .stay rfl rfl rfl (by rw [hphase]; rfl) (by rw [hphase]; rfl)
  | recheckMiss lock hphase =>
      exact .stay rfl rfl rfl (by rw [hphase]; rfl) (by rw [hphase]; rfl)
  | startPending lock hphase =>
      exact .stay rfl rfl rfl (by rw [hphase]; rfl) (by rw [hphase]; rfl)
  | write lock pending bytes file hphase =>
      exact .stay rfl rfl rfl (by rw [hphase]; rfl) (by rw [hphase]; rfl)
  | finish lock pending hphase =>
      exact .stay rfl rfl rfl (by rw [hphase]; rfl) (by rw [hphase]; rfl)
  | fail lock e hfails =>
      obtain ⟨hholding, hjoined⟩ := holding_of_filling hfails.filling
      exact .stay rfl rfl rfl hjoined.symm hholding.symm
  | panic lock hphase =>
      obtain ⟨hholding, hjoined⟩ := holding_of_filling hphase
      exact .drop lock true rfl hholding hjoined.symm rfl
  | persist lock pending hphase =>
      exact .stay rfl rfl rfl (by rw [hphase]; rfl) (by rw [hphase]; rfl)
  | admitted lock pending hphase =>
      exact .stay rfl rfl rfl (by rw [hphase]; rfl) (by rw [hphase]; rfl)
  | unlock lock result hphase =>
      exact .drop lock false rfl (by rw [hphase]; rfl) (by rw [hphase]; rfl) rfl
  | release lock result _ hphase hrelease =>
      obtain ⟨hjoined, hholding⟩ := call.ensure_unjoined result
      refine .leave lock hrelease (by rw [hphase]; rfl) hjoined ?_
      rw [hholding, hphase]
      rfl
  | releaseFailed lock result e hphase hrelease =>
      exact .poisoned (poisoned_of_release_error hrelease)
  | releasePanic lock result hphase hrelease =>
      exact .underflow lock (by rw [hphase]; rfl) hrelease
  | leave lock _ hphase hrelease =>
      exact .leave lock hrelease (by rw [hphase]; rfl) rfl (by rw [hphase]; rfl)
  | leaveFailed lock e hphase hrelease =>
      exact .poisoned (poisoned_of_release_error hrelease)
  | leavePanic lock hphase hrelease => exact .underflow lock (by rw [hphase]; rfl) hrelease
  | depart lock e hphase =>
      exact .drop lock false rfl (by rw [hphase]; rfl) (by rw [hphase]; rfl) rfl
  | read downloaded reads hphase =>
      exact .stay rfl rfl rfl (by rw [hphase]; rfl) (by rw [hphase]; rfl)

end Steps

/-! ### The locks after one step -/

section Preservation

variable {i : ℕ} {state : State} {shared' : Shared} {call call' : Call}

theorem acquire_cases {shared : Shared} {digest : Digest} {lock : ℕ}
    (h : shared.acquireDownloadLock digest = .ok (lock, shared')) :
    (shared.downloadLocks digest = some lock ∧ shared' =
      { shared with
        heap := shared.heap.modify lock fun l =>
          { l with participants := l.participants + 1 } }) ∨
    (shared.downloadLocks digest = none ∧ lock = shared.heap.length ∧ shared' =
      { shared with
        downloadLocks := Function.update shared.downloadLocks digest (some lock)
        heap := shared.heap ++ [{ gate := none, poisoned := false, participants := 1 }] }) := by
  unfold Shared.acquireDownloadLock at h
  split at h
  · cases h
  · split at h
    · next hsome =>
        cases h
        exact .inl ⟨hsome, rfl⟩
    · next hnone =>
        cases h
        exact .inr ⟨hnone, rfl, rfl⟩

theorem release_cases {shared : Shared} {digest : Digest} {lock : ℕ}
    (h : shared.releaseDownloadLock digest lock = some (.ok shared')) :
    ∃ l, shared.heap[lock]? = some l ∧ l.participants ≠ 0 ∧ shared' =
      { shared with
        downloadLocks :=
          if l.participants = 1 ∧ shared.downloadLocks digest = some lock then
            Function.update shared.downloadLocks digest none
          else shared.downloadLocks
        heap := shared.heap.set lock { l with participants := l.participants - 1 } } := by
  unfold Shared.releaseDownloadLock at h
  split at h
  · cases h
  · split at h
    · cases h
    · next l hlock =>
        split at h
        · cases h
        · next hpositive =>
            cases h
            exact ⟨l, hlock, hpositive, rfl⟩

theorem isMember_eq (hdigest : call'.digest = call.digest)
    (hjoined : call'.phase.joined = call.phase.joined) (digest : Digest) :
    call'.isMember digest = call.isMember digest := by
  rw [Call.isMember, Call.isMember, hdigest, hjoined]

theorem Coordinated.joined_set (h : Coordinated state)
    (hcall' : ∀ lock, call'.phase.joined = some lock →
      state.shared.downloadLocks call'.digest = some lock) :
    ∀ (j : ℕ) other lock, (state.threads.set i call')[j]? = some other →
      other.phase.joined = some lock →
        state.shared.downloadLocks other.digest = some lock := by
  intro j other lock hother hjoined
  obtain ⟨-, rfl⟩ | ⟨-, hold⟩ := Pool.getElem?_set_cases hother
  · exact hcall' lock hjoined
  · exact h.joined j other lock hold hjoined

def GatesKept (heap heap' : List DownloadLock) : Prop :=
  ∀ (lock : ℕ) l, heap[lock]? = some l → ∃ l', heap'[lock]? = some l' ∧ l'.gate = l.gate

theorem gatesKept_set {heap : List DownloadLock} {lock : ℕ} {l l' : DownloadLock}
    (hlock : heap[lock]? = some l) (hgate : l'.gate = l.gate) :
    GatesKept heap (heap.set lock l') := by
  intro other m hm
  by_cases hother : lock = other
  · subst hother
    rw [hlock, Option.some.injEq] at hm
    subst hm
    exact ⟨l', Pool.getElem?_set_same hlock l', hgate⟩
  · rw [List.getElem?_set_ne hother]
    exact ⟨m, hm, rfl⟩

theorem getElem?_append_of_some {heap : List DownloadLock} {lock : ℕ} {l : DownloadLock}
    (h : heap[lock]? = some l) (new : List DownloadLock) :
    (heap ++ new)[lock]? = some l := by
  rw [List.getElem?_append_left (List.getElem?_eq_some_iff.mp h).1]
  exact h

theorem Coordinated.holder_set (h : Coordinated state) (hcall : state.threads[i]? = some call)
    (hholding : ∀ lock, call'.phase.holding = some lock → call.phase.holding = some lock)
    {heap : List DownloadLock} (hgates : GatesKept state.shared.heap heap) :
    ∀ (j : ℕ) other lock, (state.threads.set i call')[j]? = some other →
      other.phase.holding = some lock → ∃ l, heap[lock]? = some l ∧ l.gate = some j := by
  intro j other lock hother hheld
  have hbefore : ∃ c, state.threads[j]? = some c ∧ c.phase.holding = some lock := by
    obtain ⟨rfl, rfl⟩ | ⟨-, hold⟩ := Pool.getElem?_set_cases hother
    · exact ⟨call, hcall, hholding lock hheld⟩
    · exact ⟨other, hold, hheld⟩
  obtain ⟨c, hc, hcheld⟩ := hbefore
  obtain ⟨l, hl, hgate⟩ := h.holder j c lock hc hcheld
  obtain ⟨l', hl', hsame⟩ := hgates lock l hl
  exact ⟨l', hl', hsame.trans hgate⟩

theorem Coordinated.setGate (h : Coordinated state) (hcall : state.threads[i]? = some call)
    (hdigest : call'.digest = call.digest)
    (hjoined : call'.phase.joined = call.phase.joined) {lock : ℕ} {l l' : DownloadLock}
    (hlock : state.shared.heap[lock]? = some l) (hparticipants : l'.participants = l.participants)
    (hself : ∀ other, call'.phase.holding = some other → other = lock ∧ l'.gate = some i)
    (hothers : ∀ (j : ℕ) other, state.threads[j]? = some other → j ≠ i →
      other.phase.holding ≠ some lock) :
    Coordinated
      { shared := { state.shared with heap := state.shared.heap.set lock l' }
        threads := state.threads.set i call' } := by
  refine
    { unpoisoned := h.unpoisoned
      joined := ?_
      entry := ?_
      injective := h.injective
      holder := ?_ }
  · refine h.joined_set ?_
    intro other hother
    rw [hdigest]
    exact h.joined i call other hcall (hjoined ▸ hother)
  · intro digest other hentry
    obtain ⟨m, hm, hpositive, hcount⟩ := h.entry digest other hentry
    dsimp only
    rw [Pool.countP_set_eq hcall (isMember_eq hdigest hjoined digest)]
    by_cases hother : other = lock
    · subst hother
      rw [hlock, Option.some.injEq] at hm
      subst hm
      exact ⟨l', Pool.getElem?_set_same hlock l', by omega, by omega⟩
    · rw [List.getElem?_set_ne (Ne.symm hother)]
      exact ⟨m, hm, hpositive, hcount⟩
  · intro j other lock' hother hholding
    obtain ⟨rfl, rfl⟩ | ⟨hne, hold⟩ := Pool.getElem?_set_cases hother
    · obtain ⟨rfl, hgate⟩ := hself lock' hholding
      exact ⟨l', Pool.getElem?_set_same hlock l', hgate⟩
    · have hlock' : lock ≠ lock' := by
        rintro rfl
        exact hothers j other hold hne hholding
      dsimp only
      rw [List.getElem?_set_ne hlock']
      exact h.holder j other lock' hold hholding

theorem countP_join (hcall : state.threads[i]? = some call)
    (hdigest : call'.digest = call.digest) (hbefore : call.phase.joined = none)
    (hafter : call'.phase.joined ≠ none) (digest : Digest) :
    (state.threads.set i call').countP (Call.isMember digest) =
      state.threads.countP (Call.isMember digest) +
        if call.digest = digest then 1 else 0 := by
  have hcount := Pool.countP_set (Call.isMember digest) hcall call'
  have hold : call.isMember digest = false := by simp [Call.isMember, hbefore]
  have hnew : call'.isMember digest = decide (call.digest = digest) := by
    simp [Call.isMember, hafter, hdigest]
  rw [hold, hnew] at hcount
  simpa using hcount

theorem countP_leave (hcall : state.threads[i]? = some call) (hbefore : call.phase.joined ≠ none)
    (hafter : call'.phase.joined = none) (digest : Digest) :
    (state.threads.set i call').countP (Call.isMember digest) +
        (if call.digest = digest then 1 else 0) =
      state.threads.countP (Call.isMember digest) := by
  have hcount := Pool.countP_set (Call.isMember digest) hcall call'
  have hold : call.isMember digest = decide (call.digest = digest) := by
    simp [Call.isMember, hbefore]
  have hnew : call'.isMember digest = false := by simp [Call.isMember, hafter]
  rw [hold, hnew] at hcount
  simpa using hcount

theorem Coordinated.join_entry (h : Coordinated state) (hcall : state.threads[i]? = some call)
    (hdigest : call'.digest = call.digest) {lock : ℕ}
    (hsome : state.shared.downloadLocks call.digest = some lock)
    (hbefore : call.phase.joined = none) (hjoined : call'.phase.joined = some lock)
    (hholding : call'.phase.holding = none) :
    Coordinated
      { shared :=
          { state.shared with
            heap := state.shared.heap.modify lock fun l =>
              { l with participants := l.participants + 1 } }
        threads := state.threads.set i call' } := by
  have hmembers := countP_join hcall hdigest hbefore (by rw [hjoined]; simp)
  obtain ⟨l, hlock, hpositive, hcount⟩ := h.entry call.digest lock hsome
  rw [Pool.modify_eq_set hlock]
  refine
    { unpoisoned := h.unpoisoned
      joined := h.joined_set ?_
      entry := ?_
      injective := h.injective
      holder := h.holder_set hcall ?_ (gatesKept_set hlock rfl) }
  · intro other hother
    rw [hjoined, Option.some.injEq] at hother
    rw [hdigest, hsome, hother]
  · intro digest other hentry
    dsimp only
    rw [hmembers]
    by_cases hsame : call.digest = digest
    · subst hsame
      rw [hsome, Option.some.injEq] at hentry
      subst hentry
      refine ⟨_, Pool.getElem?_set_same hlock _, Nat.succ_pos _, ?_⟩
      rw [if_pos rfl, ← hcount]
    · have hne : lock ≠ other := by
        rintro rfl
        exact hsame (h.injective _ _ _ hsome hentry)
      rw [List.getElem?_set_ne hne, if_neg hsame]
      exact h.entry digest other hentry
  · intro other hheld
    rw [hholding] at hheld
    cases hheld

theorem Coordinated.lock_fresh (h : Coordinated state) (digest : Digest) :
    state.shared.downloadLocks digest ≠ some state.shared.heap.length := by
  intro hentry
  obtain ⟨l, hlock, -⟩ := h.entry digest _ hentry
  rw [List.getElem?_eq_none (le_refl _)] at hlock
  cases hlock

theorem Coordinated.no_members (h : Coordinated state) {digest : Digest}
    (hnone : state.shared.downloadLocks digest = none) :
    state.threads.countP (Call.isMember digest) = 0 := by
  rw [List.countP_eq_zero]
  intro other hother hmember
  obtain ⟨j, hj⟩ := List.mem_iff_getElem?.mp hother
  obtain ⟨hsame, hmem⟩ := of_decide_eq_true hmember
  obtain ⟨lock, hlock⟩ := Option.ne_none_iff_exists'.mp hmem
  have hentry := h.joined j other lock hj hlock
  rw [hsame, hnone] at hentry
  cases hentry

/-- A fresh lock keeps the locks of the digests apart. -/
theorem update_injective {locks : Digest → Option ℕ} {digest : Digest} {lock : ℕ}
    (hinjective : ∀ d e other, locks d = some other → locks e = some other → d = e)
    (hfresh : ∀ d, locks d ≠ some lock) :
    ∀ d e other, Function.update locks digest (some lock) d = some other →
      Function.update locks digest (some lock) e = some other → d = e := by
  intro d e other hd he
  by_cases hdsame : d = digest
  · by_cases hesame : e = digest
    · rw [hdsame, hesame]
    · rw [hdsame, Function.update_self] at hd
      rw [Function.update_of_ne hesame, ← hd] at he
      exact absurd he (hfresh e)
  · rw [Function.update_of_ne hdsame] at hd
    by_cases hesame : e = digest
    · rw [hesame, Function.update_self] at he
      rw [← he] at hd
      exact absurd hd (hfresh d)
    · rw [Function.update_of_ne hesame] at he
      exact hinjective d e other hd he

theorem Coordinated.join_new (h : Coordinated state) (hcall : state.threads[i]? = some call)
    (hdigest : call'.digest = call.digest)
    (hnone : state.shared.downloadLocks call.digest = none)
    (hbefore : call.phase.joined = none)
    (hjoined : call'.phase.joined = some state.shared.heap.length)
    (hholding : call'.phase.holding = none) :
    Coordinated
      { shared :=
          { state.shared with
            downloadLocks := Function.update state.shared.downloadLocks call.digest
              (some state.shared.heap.length)
            heap := state.shared.heap ++
              [{ gate := none, poisoned := false, participants := 1 }] }
        threads := state.threads.set i call' } := by
  have hmembers := countP_join hcall hdigest hbefore (by rw [hjoined]; simp)
  refine
    { unpoisoned := h.unpoisoned
      joined := ?_
      entry := ?_
      injective := update_injective h.injective h.lock_fresh
      holder := h.holder_set hcall ?_ ?_ }
  · intro j other lock' hother hmem
    dsimp only
    obtain ⟨-, rfl⟩ | ⟨-, hold⟩ := Pool.getElem?_set_cases hother
    · rw [hdigest, Function.update_self, ← hjoined, hmem]
    · have hentry := h.joined j other lock' hold hmem
      have hne : other.digest ≠ call.digest := by
        intro hsame
        rw [hsame, hnone] at hentry
        cases hentry
      rwa [Function.update_of_ne hne]
  · intro digest other hentry
    dsimp only at hentry ⊢
    rw [hmembers]
    by_cases hsame : call.digest = digest
    · subst hsame
      rw [Function.update_self, Option.some.injEq] at hentry
      subst hentry
      refine ⟨_, List.getElem?_concat_length .., Nat.one_pos, ?_⟩
      rw [if_pos rfl, h.no_members hnone]
    · rw [Function.update_of_ne (Ne.symm hsame)] at hentry
      obtain ⟨m, hm, hpositive, hcount⟩ := h.entry digest other hentry
      rw [if_neg hsame]
      exact ⟨m, getElem?_append_of_some hm _, hpositive, hcount⟩
  · intro other hheld
    rw [hholding] at hheld
    cases hheld
  · intro other m hm
    exact ⟨m, getElem?_append_of_some hm _, rfl⟩

/-- The map after a release: the entry of the digest stays while it has other members. -/
theorem released_eq_some_iff {locks : Digest → Option ℕ} {digest d : Digest}
    {lock other participants : ℕ} (hentry : locks digest = some lock) :
    (if participants = 1 ∧ locks digest = some lock then Function.update locks digest none
      else locks) d = some other ↔
      locks d = some other ∧ (d = digest → participants ≠ 1) := by
  by_cases hlast : participants = 1
  · rw [if_pos ⟨hlast, hentry⟩]
    by_cases hsame : d = digest
    · subst hsame
      simp [hlast]
    · rw [Function.update_of_ne hsame]
      exact ⟨fun hd => ⟨hd, fun h => absurd h hsame⟩, fun hd => hd.1⟩
  · rw [if_neg fun hand => hlast hand.1]
    exact ⟨fun hd => ⟨hd, fun _ => hlast⟩, fun hd => hd.1⟩

theorem Coordinated.leave (h : Coordinated state) (hcall : state.threads[i]? = some call)
    (hdigest : call'.digest = call.digest) {lock : ℕ}
    (hrelease : state.shared.releaseDownloadLock call.digest lock = some (.ok shared'))
    (hbefore : call.phase.joined = some lock) (hjoined : call'.phase.joined = none)
    (hholding : ∀ other, call'.phase.holding = some other →
      call.phase.holding = some other) :
    Coordinated { shared := shared', threads := state.threads.set i call' } := by
  have hmembers : ∀ digest, (state.threads.set i call').countP (Call.isMember digest) +
      (if call.digest = digest then 1 else 0) =
        state.threads.countP (Call.isMember digest) :=
    countP_leave hcall (by rw [hbefore]; simp) hjoined
  have hentry := h.joined i call lock hcall hbefore
  obtain ⟨l, hlock, hpositive, rfl⟩ := release_cases hrelease
  obtain ⟨m, hm, -, hcount⟩ := h.entry call.digest lock hentry
  rw [hlock, Option.some.injEq] at hm
  subst hm
  have hself := hmembers call.digest
  rw [if_pos rfl] at hself
  refine
    { unpoisoned := h.unpoisoned
      joined := ?_
      entry := ?_
      injective := ?_
      holder := h.holder_set hcall hholding (gatesKept_set hlock rfl) }
  · intro j other lock' hother hmem
    have hset : (state.threads.set i call')[j]? = some other := hother
    obtain ⟨-, rfl⟩ | ⟨-, hold⟩ := Pool.getElem?_set_cases hset
    · rw [hjoined] at hmem
      cases hmem
    · refine (released_eq_some_iff hentry).mpr ⟨h.joined j other lock' hold hmem, ?_⟩
      -- the call is not the last member: the other one is still there
      intro hsame hlast
      have hmember : other.isMember call.digest = true := by
        simp [Call.isMember, hsame, hmem]
      have hmore := Pool.countP_pos_of_getElem? hset hmember
      omega
  · intro digest other hother
    obtain ⟨hkept, hmany⟩ := (released_eq_some_iff hentry).mp hother
    have hcounted := hmembers digest
    dsimp only
    by_cases hsame : call.digest = digest
    · subst hsame
      rw [hentry, Option.some.injEq] at hkept
      subst hkept
      have hmany := hmany rfl
      refine ⟨_, Pool.getElem?_set_same hlock _, ?_, ?_⟩
      · dsimp only
        omega
      · dsimp only
        omega
    · have hne : lock ≠ other := by
        rintro rfl
        exact hsame (h.injective _ _ _ hentry hkept)
      rw [if_neg hsame, Nat.add_zero] at hcounted
      rw [List.getElem?_set_ne hne, hcounted]
      exact h.entry digest other hkept
  · intro d e other hd he
    exact h.injective d e other ((released_eq_some_iff hentry).mp hd).1
      ((released_eq_some_iff hentry).mp he).1

/-- One step of a call keeps the locks coordinated. -/
theorem Coordinated.act (h : Coordinated state) (hcall : state.threads[i]? = some call)
    (hdigest : call'.digest = call.digest)
    (hstep : Coordinates i state.shared call shared' call') :
    Coordinated { shared := shared', threads := state.threads.set i call' } := by
  cases hstep with
  | stay hmap hpoisoned hheap hjoined hholding =>
      refine
        { unpoisoned := hpoisoned.trans h.unpoisoned
          joined := ?_
          entry := ?_
          injective := ?_
          holder := h.holder_set hcall (fun lock hheld => hholding ▸ hheld) ?_ }
      · dsimp only
        rw [hmap]
        refine h.joined_set ?_
        intro other hother
        rw [hdigest]
        exact h.joined i call other hcall (hjoined ▸ hother)
      · intro digest other hentry
        dsimp only at hentry ⊢
        rw [Pool.countP_set_eq hcall (isMember_eq hdigest hjoined digest), hheap]
        exact h.entry digest other (hmap ▸ hentry)
      · intro d e other hd he
        exact h.injective d e other (hmap ▸ hd) (hmap ▸ he)
      · intro lock l hl
        exact ⟨l, hheap ▸ hl, rfl⟩
  | join lock hacquire hbefore hjoined hfree hholding =>
      obtain ⟨hsome, rfl⟩ | ⟨hnone, rfl, rfl⟩ := acquire_cases hacquire
      · exact h.join_entry hcall hdigest hsome hbefore hjoined hholding
      · exact h.join_new hcall hdigest hnone hbefore hjoined hholding
  | enter lock l hlock hgate hshared hbefore hjoined hfree hholding =>
      rw [hshared]
      refine h.setGate hcall hdigest (hjoined.trans hbefore.symm) hlock rfl ?_ ?_
      · intro other hother
        rw [hholding, Option.some.injEq] at hother
        exact ⟨hother.symm, rfl⟩
      · intro j other hother _ hheld
        obtain ⟨m, hm, hsome⟩ := h.holder j other lock hother hheld
        rw [hlock, Option.some.injEq] at hm
        rw [← hm, hgate] at hsome
        cases hsome
  | drop lock panicking hshared hbefore hjoined hholding =>
      obtain ⟨l, hlock, hgate⟩ := h.holder i call lock hcall hbefore
      rw [hshared, Shared.dropGuard, Pool.modify_eq_set hlock]
      refine h.setGate hcall hdigest hjoined hlock rfl ?_ ?_
      · intro other hother
        rw [hholding] at hother
        cases hother
      · intro j other hother hne hheld
        obtain ⟨m, hm, hsome⟩ := h.holder j other lock hother hheld
        rw [hlock, Option.some.injEq] at hm
        rw [← hm, hgate, Option.some.injEq] at hsome
        exact hne hsome.symm
  | leave lock hrelease hbefore hjoined hholding =>
      exact h.leave hcall hdigest hrelease hbefore hjoined fun other hheld => hholding ▸ hheld
  | poisoned hpoisoned =>
      rw [h.unpoisoned] at hpoisoned
      cases hpoisoned
  | underflow lock hbefore hnone =>
      obtain ⟨l, hlock, hpositive, -⟩ :=
        h.entry call.digest lock (h.joined i call lock hcall hbefore)
      have hne : l.participants ≠ 0 := by omega
      simp [Shared.releaseDownloadLock, h.unpoisoned, hlock, hne] at hnone

theorem coordinated_start (files : PathBuf → Option Bytes) : Coordinated (start files) := by
  refine ⟨rfl, ?_, ?_, ?_, ?_⟩
  · intro i call lock hcall
    simp [start] at hcall
  · intro digest lock hentry
    cases hentry
  · intro d e lock hd
    cases hd
  · intro i call lock hcall
    simp [start] at hcall

theorem Coordinated.begin (h : Coordinated state) (arguments : Digest × Request) :
    Coordinated { state with threads := state.threads ++ [Call.begin arguments] } := by
  refine ⟨h.unpoisoned, ?_, ?_, h.injective, ?_⟩
  · intro j other lock hother hjoined
    obtain hold | rfl := Pool.getElem?_append_cases hother
    · exact h.joined j other lock hold hjoined
    · cases hjoined
  · intro digest lock hentry
    have hnew : [Call.begin arguments].countP (Call.isMember digest) = 0 := by
      simp [Call.isMember, Call.begin, Phase.joined]
    dsimp only
    rw [List.countP_append, hnew]
    exact h.entry digest lock hentry
  · intro j other lock hother hheld
    obtain hold | rfl := Pool.getElem?_append_cases hother
    · exact h.holder j other lock hold hheld
    · cases hheld

theorem Coordinated.step [Sha256] {root : PathBuf} {state' : State} {move : Move}
    (h : Coordinated state) (hstep : step root state move = some state') :
    Coordinated state' := by
  obtain ⟨arguments, -, rfl⟩ | ⟨i, action, call, shared', call', -, hcall, hact, rfl⟩ :=
    Pool.step_cases hstep
  · exact h.begin arguments
  · have hadvance := advance_advances hact
    exact h.act hcall hadvance.digest_eq hadvance.coordinates

end Preservation

/-! ### What calls have reported -/

/-- What `ensure_cached` returned, or is about to return. -/
def Call.outcome (call : Call) : Option (Except SessionError Bool) :=
  match call.phase with
  | .unlocking _ result => some result
  | .releasing _ result => some result
  | _ => call.ensured

def Phase.ended : Phase → Bool
  | .reading _ => true
  | .returned _ => true
  | _ => false

def Call.reportsDownload (digest : Digest) (call : Call) : Bool :=
  call.digest = digest ∧ call.outcome = some (.ok true)

def Call.createdEntry (digest : Digest) (call : Call) : Bool :=
  call.digest = digest ∧ call.admitted = true

/-- A result is recorded when `ensure_cached` returns, and only a call that reports
the download created the entry. -/
structure Call.Recorded (call : Call) : Prop where
  ensured : call.phase.ended = false → call.ensured = none
  admitted : call.admitted = true → call.outcome = some (.ok true)

theorem Call.ensure_outcome (call : Call) (result : Except SessionError Bool) :
    (call.ensure result).outcome = some result := by
  cases result <;> rfl

theorem Call.ensure_ended (call : Call) (result : Except SessionError Bool) :
    (call.ensure result).phase.ended = true := by
  cases result <;> rfl

/-- What a step does to the entries and to the results. -/
inductive Fills (root : PathBuf) (shared : Shared) (call : Call) (shared' : Shared)
    (call' : Call) : Prop
  | create (lock : ℕ) (pending : PendingBlob) (hphase : call.phase = .admitting lock pending)
      (hfiles : shared'.files =
        Function.update shared.files pending.destination (some pending.temporary))
      (hafter : call'.phase = .unlocking lock (.ok true)) (hensured : call'.ensured = call.ensured)
      (hadmitted : call'.admitted = true)
  | keep (hfiles : shared'.files = shared.files) (hadmitted : call'.admitted = call.admitted)
      (houtcome : call'.outcome = some (.ok true) ↔ call.outcome = some (.ok true))
      (hended : call'.phase.ended = false → call'.ensured = none)
      (hfilling : call'.phase.filling ≠ none →
        call.phase.filling ≠ none ∨ shared.files (path root call.digest) = none)
      (hok : ∀ downloaded, call'.outcome = some (.ok downloaded) →
        call.outcome = some (.ok downloaded) ∨ shared.files (path root call.digest) ≠ none)

section Reports

variable [Sha256] {root : PathBuf} {index : ℕ} {action : Action} {shared shared' : Shared}
  {call call' : Call}

omit [Sha256] in
theorem Fills.goto (hrecorded : call.Recorded) (hended : call.phase.ended = false)
    (houtcome : call.outcome = call.ensured) {phase : Phase}
    (hphase : ∀ c : Call, (c.goto phase).outcome = c.ensured)
    (hfiles : shared'.files = shared.files)
    (hfilling : phase.filling ≠ none →
      call.phase.filling ≠ none ∨ shared.files (path root call.digest) = none) :
    Fills root shared call shared' (call.goto phase) := by
  have hnone := hrecorded.ensured hended
  refine .keep hfiles rfl ?_ (fun _ => hnone) hfilling ?_
  · rw [hphase, houtcome]
  · intro downloaded hok
    rw [hphase, hnone] at hok
    cases hok

omit [Sha256] in
theorem Fills.settle (hrecorded : call.Recorded) (hended : call.phase.ended = false)
    (houtcome : call.outcome = call.ensured) (result : Except SessionError Bool)
    (hafter : call'.outcome = some result) (hresult : result ≠ .ok true)
    (hpresent : ∀ downloaded, result = .ok downloaded →
      shared.files (path root call.digest) ≠ none)
    (hfiles : shared'.files = shared.files) (hadmitted : call'.admitted = call.admitted)
    (hensured : call'.phase.ended = false → call'.ensured = none)
    (hfilling : call'.phase.filling = none) :
    Fills root shared call shared' call' := by
  have hnone := hrecorded.ensured hended
  refine .keep hfiles hadmitted ?_ hensured (fun hne => absurd hfilling hne) ?_
  · rw [hafter, houtcome, hnone, Option.some.injEq]
    exact ⟨fun h => absurd h hresult, fun h => nomatch h⟩
  · intro downloaded hok
    rw [hafter, Option.some.injEq] at hok
    exact .inr (hpresent downloaded hok)

omit [Sha256] in
theorem Call.ensure_filling (call : Call) (result : Except SessionError Bool) :
    (call.ensure result).phase.filling = none := by
  cases result <;> rfl

omit [Sha256] in
theorem ne_none_of_contains (h : shared.cacheContains root call.digest = true) :
    shared.files (path root call.digest) ≠ none := by
  rw [Shared.cacheContains] at h
  exact Option.isSome_iff_ne_none.mp h

omit [Sha256] in
theorem Fills.carry (houtcome : call'.outcome = call.outcome)
    (hfiles : shared'.files = shared.files) (hadmitted : call'.admitted = call.admitted)
    (hensured : call'.phase.ended = false → call'.ensured = none)
    (hfilling : call'.phase.filling = none) : Fills root shared call shared' call' := by
  refine .keep hfiles hadmitted (by rw [houtcome]) hensured
    (fun hne => absurd hfilling hne) ?_
  intro downloaded hok
  exact .inl (houtcome ▸ hok)

omit [Sha256] in
theorem outcome_of_filling {lock : ℕ} (h : call.phase.filling = some lock) :
    call.phase.ended = false ∧ call.outcome = call.ensured := by
  unfold Call.outcome
  cases hphase : call.phase <;> rw [hphase] at h <;> cases h <;> exact ⟨rfl, rfl⟩

/-- The entries and the results after a step of a call whose lock is sound. -/
theorem Advances.fills (h : Advances root index action shared call shared' call')
    (hrecorded : call.Recorded) (hpoisoned : shared.poisoned = false)
    (hrelease : ∀ lock, call.phase.joined = some lock →
      shared.releaseDownloadLock call.digest lock ≠ none)
    (habsent : call.phase.filling ≠ none → shared.files (path root call.digest) = none)
    (hpending : call.PendingSound root) : Fills root shared call shared' call' := by
  have houtcome : ∀ {phase : Phase}, call.phase = phase →
      (∀ c : Call, (c.goto phase).outcome = c.ensured) → call.outcome = call.ensured := by
    rintro _ rfl hsame
    exact hsame call
  have hended : ∀ {result : Except SessionError Bool},
      (call.ensure result).phase.ended = false → (call.ensure result).ensured = none := by
    intro result hfalse
    rw [call.ensure_ended result] at hfalse
    cases hfalse
  cases h with
  | hit hphase hcontains =>
      exact .settle hrecorded (by rw [hphase]; rfl) (houtcome hphase fun _ => rfl)
        _ (call.ensure_outcome (.ok false)) (by decide) (fun _ _ => ne_none_of_contains hcontains)
        rfl rfl hended (call.ensure_filling _)
  | miss hphase =>
      exact .goto hrecorded (by rw [hphase]; rfl) (houtcome hphase fun _ => rfl)
        (fun _ => rfl) rfl (fun hne => absurd rfl hne)
  | coordinateFailed e hphase hacquire =>
      rw [poisoned_of_acquire_error hacquire] at hpoisoned
      cases hpoisoned
  | acquire lock _ hphase hacquire =>
      exact .goto hrecorded (by rw [hphase]; rfl) (houtcome hphase fun _ => rfl)
        (fun _ => rfl) (acquire_files hacquire) (fun hne => absurd rfl hne)
  | enter lock l hphase =>
      exact .goto hrecorded (by rw [hphase]; rfl) (houtcome hphase fun _ => rfl)
        (fun _ => rfl) rfl (fun hne => absurd rfl hne)
  | refuse lock l hphase =>
      exact .goto hrecorded (by rw [hphase]; rfl) (houtcome hphase fun _ => rfl)
        (fun _ => rfl) rfl (fun hne => absurd rfl hne)
  | recheckHit lock hphase hcontains =>
      exact .settle hrecorded (by rw [hphase]; rfl) (houtcome hphase fun _ => rfl)
        (.ok false) rfl (by decide) (fun _ _ => ne_none_of_contains hcontains)
        rfl rfl (fun _ => hrecorded.ensured (by rw [hphase]; rfl)) rfl
  | recheckMiss lock hphase hcontains =>
      refine .goto hrecorded (by rw [hphase]; rfl) (houtcome hphase fun _ => rfl)
        (fun _ => rfl) rfl (fun _ => .inr ?_)
      rw [Shared.cacheContains] at hcontains
      exact Option.isSome_eq_false_iff.mp hcontains |> Option.isNone_iff_eq_none.mp
  | startPending lock hphase =>
      exact .goto hrecorded (by rw [hphase]; rfl) (houtcome hphase fun _ => rfl)
        (fun _ => rfl) rfl (fun _ => .inl (by rw [hphase]; simp [Phase.filling]))
  | write lock pending bytes file hphase =>
      exact .goto hrecorded (by rw [hphase]; rfl) (houtcome hphase fun _ => rfl)
        (fun _ => rfl) rfl (fun _ => .inl (by rw [hphase]; simp [Phase.filling]))
  | finish lock pending hphase =>
      exact .goto hrecorded (by rw [hphase]; rfl) (houtcome hphase fun _ => rfl)
        (fun _ => rfl) rfl (fun _ => .inl (by rw [hphase]; simp [Phase.filling]))
  | fail lock e hfails =>
      obtain ⟨hunended, hsame⟩ := outcome_of_filling hfails.filling
      exact .settle hrecorded hunended hsame (.error e) rfl (by simp)
        (fun _ hok => by cases hok) rfl rfl (fun _ => hrecorded.ensured hunended) rfl
  | panic lock hphase =>
      obtain ⟨hunended, hsame⟩ := outcome_of_filling hphase
      exact .goto hrecorded hunended hsame (fun _ => rfl) rfl (fun hne => absurd rfl hne)
  | persist lock pending hphase hverify hnone =>
      exact .create lock pending hphase rfl rfl rfl rfl
  | admitted lock pending hphase hverify hpresent =>
      obtain ⟨-, -, hdestination⟩ := hpending.admitting hphase
      rw [hdestination] at hpresent
      exact absurd (habsent (by rw [hphase]; simp [Phase.filling])) hpresent
  | unlock lock result hphase =>
      refine .carry ?_ rfl rfl (fun _ => hrecorded.ensured (by rw [hphase]; rfl)) rfl
      rw [Call.outcome, Call.outcome, hphase]
      rfl
  | release lock result _ hphase hok =>
      refine .carry ?_ (release_files hok) rfl hended (call.ensure_filling _)
      rw [call.ensure_outcome, Call.outcome, hphase]
  | releaseFailed lock result e hphase hfailed =>
      rw [poisoned_of_release_error hfailed] at hpoisoned
      cases hpoisoned
  | releasePanic lock result hphase hnone =>
      exact absurd hnone (hrelease lock (by rw [hphase]; rfl))
  | leave lock _ hphase hok =>
      exact .goto hrecorded (by rw [hphase]; rfl) (houtcome hphase fun _ => rfl)
        (fun _ => rfl) (release_files hok) (fun hne => absurd rfl hne)
  | leaveFailed lock e hphase hfailed =>
      rw [poisoned_of_release_error hfailed] at hpoisoned
      cases hpoisoned
  | leavePanic lock hphase hnone =>
      exact absurd hnone (hrelease lock (by rw [hphase]; rfl))
  | depart lock e hphase =>
      exact .settle hrecorded (by rw [hphase]; rfl) (houtcome hphase fun _ => rfl)
        _ (call.ensure_outcome (.error e)) (by simp) (fun _ hok => by cases hok)
        rfl rfl hended (call.ensure_filling _)
  | read downloaded reads hphase =>
      refine .carry ?_ rfl rfl (fun hfalse => by cases hfalse) rfl
      rw [Call.outcome, Call.outcome, hphase]
      rfl

end Reports

/-! ### The entries of a run -/

/-- An entry that was not there when the cache was opened. -/
def Added (root : PathBuf) (initial files : PathBuf → Option Bytes) (digest : Digest) : Prop :=
  initial (path root digest) = none ∧ files (path root digest) ≠ none

instance (root : PathBuf) (initial files : PathBuf → Option Bytes) (digest : Digest) :
    Decidable (Added root initial files digest) :=
  inferInstanceAs (Decidable (_ ∧ _))

/-- Every added entry was created by one call, which reports the download. -/
structure Filled (root : PathBuf) (initial : PathBuf → Option Bytes) (state : State) : Prop where
  recorded : ∀ (i : ℕ) call, state.threads[i]? = some call → call.Recorded
  pending : ∀ (i : ℕ) call, state.threads[i]? = some call → call.PendingSound root
  filling : ∀ (i : ℕ) call, state.threads[i]? = some call → call.phase.filling ≠ none →
    state.shared.files (path root call.digest) = none
  ok : ∀ (i : ℕ) call downloaded, state.threads[i]? = some call →
    call.outcome = some (.ok downloaded) → state.shared.files (path root call.digest) ≠ none
  kept : ∀ digest, initial (path root digest) ≠ none →
    state.shared.files (path root digest) ≠ none
  created : ∀ digest, state.threads.countP (Call.createdEntry digest) =
    if Added root initial state.shared.files digest then 1 else 0
  reported : ∀ digest, state.threads.countP (Call.reportsDownload digest) =
    if Added root initial state.shared.files digest then 1 else 0

/-- One call at a time fills the cache for a digest. -/
theorem Coordinated.filling_unique {state : State} (h : Coordinated state) {i j : ℕ}
    {call other : Call} (hcall : state.threads[i]? = some call)
    (hother : state.threads[j]? = some other) (hdigest : other.digest = call.digest)
    (hfilling : call.phase.filling ≠ none) (hfilling' : other.phase.filling ≠ none) :
    i = j := by
  obtain ⟨lock, hlock⟩ := Option.ne_none_iff_exists'.mp hfilling
  obtain ⟨lock', hlock'⟩ := Option.ne_none_iff_exists'.mp hfilling'
  obtain ⟨hholding, hjoined⟩ := holding_of_filling hlock
  obtain ⟨hholding', hjoined'⟩ := holding_of_filling hlock'
  have hentry := h.joined i call lock hcall hjoined
  have hentry' := h.joined j other lock' hother hjoined'
  rw [hdigest, hentry, Option.some.injEq] at hentry'
  subst hentry'
  obtain ⟨l, hl, hgate⟩ := h.holder i call lock hcall hholding
  obtain ⟨l', hl', hgate'⟩ := h.holder j other lock hother hholding'
  rw [hl, Option.some.injEq] at hl'
  rw [← hl', hgate, Option.some.injEq] at hgate'
  exact hgate'

theorem Coordinated.release_ne_none {state : State} (h : Coordinated state) {i : ℕ}
    {call : Call} (hcall : state.threads[i]? = some call) (lock : ℕ)
    (hjoined : call.phase.joined = some lock) :
    state.shared.releaseDownloadLock call.digest lock ≠ none := by
  obtain ⟨l, hlock, hpositive, -⟩ :=
    h.entry call.digest lock (h.joined i call lock hcall hjoined)
  have hne : l.participants ≠ 0 := by omega
  simp [Shared.releaseDownloadLock, h.unpoisoned, hlock, hne]

section Entries

variable {root : PathBuf} {initial : PathBuf → Option Bytes} {state : State} {i : ℕ}
  {shared' : Shared} {call call' : Call}

theorem Filled.keep (h : Filled root initial state) (hcall : state.threads[i]? = some call)
    (hdigest : call'.digest = call.digest) (hpending : call'.PendingSound root)
    (hfiles : shared'.files = state.shared.files) (hadmitted : call'.admitted = call.admitted)
    (houtcome : call'.outcome = some (.ok true) ↔ call.outcome = some (.ok true))
    (hended : call'.phase.ended = false → call'.ensured = none)
    (hfilling : call'.phase.filling ≠ none → call.phase.filling ≠ none ∨
      state.shared.files (path root call.digest) = none)
    (hok : ∀ downloaded, call'.outcome = some (.ok downloaded) →
      call.outcome = some (.ok downloaded) ∨
        state.shared.files (path root call.digest) ≠ none) :
    Filled root initial { shared := shared', threads := state.threads.set i call' } := by
  have hrecorded := h.recorded i call hcall
  refine
    { recorded := ?_
      pending := ?_
      filling := ?_
      ok := ?_
      kept := ?_
      created := ?_
      reported := ?_ }
  · intro j other hother
    obtain ⟨-, rfl⟩ | ⟨-, hold⟩ := Pool.getElem?_set_cases hother
    · refine ⟨hended, fun hcreated => houtcome.mpr (hrecorded.admitted ?_)⟩
      rwa [← hadmitted]
    · exact h.recorded j other hold
  · intro j other hother
    obtain ⟨-, rfl⟩ | ⟨-, hold⟩ := Pool.getElem?_set_cases hother
    · exact hpending
    · exact h.pending j other hold
  · intro j other hother hfill
    dsimp only
    rw [hfiles]
    obtain ⟨-, rfl⟩ | ⟨-, hold⟩ := Pool.getElem?_set_cases hother
    · rw [hdigest]
      obtain hbefore | hnone := hfilling hfill
      · exact h.filling i call hcall hbefore
      · exact hnone
    · exact h.filling j other hold hfill
  · intro j other downloaded hother hresult
    dsimp only
    rw [hfiles]
    obtain ⟨-, rfl⟩ | ⟨-, hold⟩ := Pool.getElem?_set_cases hother
    · rw [hdigest]
      obtain hbefore | hsome := hok downloaded hresult
      · exact h.ok i call downloaded hcall hbefore
      · exact hsome
    · exact h.ok j other downloaded hold hresult
  · intro digest hinitial
    dsimp only
    rw [hfiles]
    exact h.kept digest hinitial
  · intro digest
    have hsame : call'.createdEntry digest = call.createdEntry digest := by
      rw [Call.createdEntry, Call.createdEntry, hdigest, hadmitted]
    dsimp only
    rw [Pool.countP_set_eq hcall hsame, h.created digest, hfiles]
  · intro digest
    have hsame : call'.reportsDownload digest = call.reportsDownload digest := by
      rw [Call.reportsDownload, Call.reportsDownload, hdigest, decide_eq_decide, houtcome]
    dsimp only
    rw [Pool.countP_set_eq hcall hsame, h.reported digest, hfiles]

theorem countP_added {p : Digest → Call → Bool} {files' : PathBuf → Option Bytes}
    (hcall : state.threads[i]? = some call)
    (hbefore : ∀ digest, p digest call = false)
    (hafter : ∀ digest, p digest call' = decide (call.digest = digest))
    (hcount : ∀ digest, state.threads.countP (p digest) =
      if Added root initial state.shared.files digest then 1 else 0)
    (hnew : ¬ Added root initial state.shared.files call.digest)
    (hadded : Added root initial files' call.digest)
    (hothers : ∀ digest, digest ≠ call.digest →
      files' (path root digest) = state.shared.files (path root digest)) (digest : Digest) :
    (state.threads.set i call').countP (p digest) =
      if Added root initial files' digest then 1 else 0 := by
  have hset := Pool.countP_set (p digest) hcall call'
  rw [hbefore, hafter, hcount] at hset
  by_cases hsame : call.digest = digest
  · subst hsame
    rw [if_neg hnew] at hset
    rw [if_pos hadded]
    simpa using hset
  · have hunchanged : Added root initial files' digest ↔
        Added root initial state.shared.files digest := by
      rw [Added, Added, hothers digest (Ne.symm hsame)]
    simp only [Bool.false_eq_true, if_false, decide_eq_true_eq, hsame, Nat.add_zero] at hset
    rw [hset]
    exact if_congr hunchanged.symm rfl rfl

theorem Filled.create (hlocks : Coordinated state) (h : Filled root initial state)
    (hcall : state.threads[i]? = some call) (hdigest : call'.digest = call.digest)
    {lock : ℕ} {pending : PendingBlob} (hphase : call.phase = .admitting lock pending)
    (hfiles : shared'.files =
      Function.update state.shared.files pending.destination (some pending.temporary))
    (hafter : call'.phase = .unlocking lock (.ok true)) (hensured : call'.ensured = call.ensured)
    (hadmitted : call'.admitted = true) :
    Filled root initial { shared := shared', threads := state.threads.set i call' } := by
  obtain ⟨-, -, hdestination⟩ := (h.pending i call hcall).admitting hphase
  have hfilling : call.phase.filling ≠ none := by
    rw [hphase]
    simp [Phase.filling]
  have habsent := h.filling i call hcall hfilling
  have hrecorded := h.recorded i call hcall
  have hunensured : call.ensured = none := hrecorded.ensured (by rw [hphase]; rfl)
  have houtcome : call.outcome = none := by
    rw [Call.outcome, hphase]
    exact hunensured
  have houtcome' : call'.outcome = some (.ok true) := by
    rw [Call.outcome, hafter]
  have huncreated : call.admitted = false := by
    cases hcreated : call.admitted with
    | false => rfl
    | true =>
        have hresult := hrecorded.admitted hcreated
        rw [houtcome] at hresult
        cases hresult
  have hself : shared'.files (path root call.digest) ≠ none := by
    rw [hfiles, hdestination, Function.update_self]
    exact Option.some_ne_none _
  have hothers : ∀ digest, digest ≠ call.digest →
      shared'.files (path root digest) = state.shared.files (path root digest) := by
    intro digest hne
    rw [hfiles, hdestination]
    exact Function.update_of_ne (fun heq => hne (path_injective root heq)) _ _
  have hgrow : ∀ digest, state.shared.files (path root digest) ≠ none →
      shared'.files (path root digest) ≠ none := by
    intro digest hsome
    by_cases hsame : digest = call.digest
    · rw [hsame]
      exact hself
    · rwa [hothers digest hsame]
  have hinitial : initial (path root call.digest) = none := by
    by_contra hsome
    exact h.kept call.digest hsome habsent
  have hnew : ¬ Added root initial state.shared.files call.digest :=
    fun hadded => hadded.2 habsent
  refine
    { recorded := ?_
      pending := ?_
      filling := ?_
      ok := ?_
      kept := fun digest hsome => hgrow digest (h.kept digest hsome)
      created := ?_
      reported := ?_ }
  · intro j other hother
    obtain ⟨-, rfl⟩ | ⟨-, hold⟩ := Pool.getElem?_set_cases hother
    · exact ⟨fun _ => hensured.trans hunensured, fun _ => houtcome'⟩
    · exact h.recorded j other hold
  · intro j other hother
    obtain ⟨-, rfl⟩ | ⟨-, hold⟩ := Pool.getElem?_set_cases hother
    · refine Call.pendingSound_of_none ?_
      rw [hafter]
      rfl
    · exact h.pending j other hold
  · intro j other hother hfill
    obtain ⟨-, rfl⟩ | ⟨hne, hold⟩ := Pool.getElem?_set_cases hother
    · rw [hafter] at hfill
      exact absurd rfl hfill
    · have hdiffer : other.digest ≠ call.digest := fun hsame =>
        hne (hlocks.filling_unique hcall hold hsame hfilling hfill).symm
      exact (hothers _ hdiffer).trans (h.filling j other hold hfill)
  · intro j other downloaded hother hresult
    obtain ⟨-, rfl⟩ | ⟨-, hold⟩ := Pool.getElem?_set_cases hother
    · rw [hdigest]
      exact hself
    · exact hgrow _ (h.ok j other downloaded hold hresult)
  · refine countP_added hcall ?_ ?_ h.created hnew ⟨hinitial, hself⟩ hothers
    · intro digest
      simp [Call.createdEntry, huncreated]
    · intro digest
      simp [Call.createdEntry, hdigest, hadmitted]
  · refine countP_added hcall ?_ ?_ h.reported hnew ⟨hinitial, hself⟩ hothers
    · intro digest
      simp [Call.reportsDownload, houtcome]
    · intro digest
      simp [Call.reportsDownload, hdigest, houtcome']

theorem Filled.begin (h : Filled root initial state) (arguments : Digest × Request) :
    Filled root initial { state with threads := state.threads ++ [Call.begin arguments] } := by
  refine
    { recorded := ?_
      pending := ?_
      filling := ?_
      ok := ?_
      kept := h.kept
      created := ?_
      reported := ?_ }
  · intro j other hother
    obtain hold | rfl := Pool.getElem?_append_cases hother
    · exact h.recorded j other hold
    · exact ⟨fun _ => rfl, fun hcreated => nomatch hcreated⟩
  · intro j other hother
    obtain hold | rfl := Pool.getElem?_append_cases hother
    · exact h.pending j other hold
    · exact Call.pendingSound_of_none rfl
  · intro j other hother hfill
    obtain hold | rfl := Pool.getElem?_append_cases hother
    · exact h.filling j other hold hfill
    · exact absurd rfl hfill
  · intro j other downloaded hother hresult
    obtain hold | rfl := Pool.getElem?_append_cases hother
    · exact h.ok j other downloaded hold hresult
    · cases hresult
  · intro digest
    have hnone : [Call.begin arguments].countP (Call.createdEntry digest) = 0 := by
      simp [Call.createdEntry, Call.begin]
    dsimp only
    rw [List.countP_append, hnone]
    exact h.created digest
  · intro digest
    have hnone : [Call.begin arguments].countP (Call.reportsDownload digest) = 0 := by
      simp [Call.reportsDownload, Call.begin, Call.outcome]
    dsimp only
    rw [List.countP_append, hnone]
    exact h.reported digest

theorem Filled.step [Sha256] {state' : State} {move : Move} (hlocks : Coordinated state)
    (h : Filled root initial state) (hstep : step root state move = some state') :
    Filled root initial state' := by
  obtain ⟨arguments, -, rfl⟩ | ⟨i, action, call, shared', call', -, hcall, hact, rfl⟩ :=
    Pool.step_cases hstep
  · exact h.begin arguments
  · have hadvance := advance_advances hact
    have hpending := h.pending i call hcall
    have hfills := hadvance.fills (h.recorded i call hcall) hlocks.unpoisoned
      (hlocks.release_ne_none hcall) (h.filling i call hcall) hpending
    cases hfills with
    | create lock pending hphase hfiles hafter hensured hadmitted =>
        exact h.create hlocks hcall hadvance.digest_eq hphase hfiles hafter hensured hadmitted
    | keep hfiles hadmitted houtcome hended hfilling hok =>
        exact h.keep hcall hadvance.digest_eq (hadvance.pendingSound hpending) hfiles hadmitted
          houtcome hended hfilling hok

theorem filled_start (root : PathBuf) (files : PathBuf → Option Bytes) :
    Filled root files (start files) := by
  have hnone : ∀ digest, ¬ Added root files files digest :=
    fun digest hadded => hadded.2 hadded.1
  have hempty : ∀ (i : ℕ) call, (start files).threads[i]? ≠ some call := by
    intro i call hcall
    simp [start] at hcall
  refine
    { recorded := fun i call hcall => absurd hcall (hempty i call)
      pending := fun i call hcall => absurd hcall (hempty i call)
      filling := fun i call hcall => absurd hcall (hempty i call)
      ok := fun i call downloaded hcall => absurd hcall (hempty i call)
      kept := fun _ h => h
      created := fun digest => (if_neg (hnone digest)).symm
      reported := fun digest => (if_neg (hnone digest)).symm }

end Entries

/-! ### Single flight -/

/-- `ensure_cached` has neither returned nor panicked. -/
def Call.InProgress (call : Call) : Prop :=
  call.ensured = none ∧ ∀ lock, call.phase ≠ .panicked lock

/-- The download of a digest happens once. -/
structure SingleFlight (root : PathBuf) (initial : PathBuf → Option Bytes) (state : State) :
    Prop where
  lock : ∀ call ∈ state.threads, ∀ lock, call.phase.joined = some lock →
    state.shared.downloadLocks call.digest = some lock ∧
      ∃ l, state.shared.heap[lock]? = some l ∧
        l.participants = state.threads.countP (Call.isMember call.digest)
  one_stream : ∀ (i j : ℕ) call other lock lock' pending pending',
    state.threads[i]? = some call → state.threads[j]? = some other →
    call.phase = .streaming lock pending → other.phase = .streaming lock' pending' →
    other.digest = call.digest → i = j
  one_admission : ∀ digest, state.threads.countP (Call.createdEntry digest) ≤ 1
  one_download : ∀ digest, initial (path root digest) = none →
    (∀ call ∈ state.threads, ¬ call.InProgress) →
    (∃ call ∈ state.threads, call.digest = digest ∧
      ∃ downloaded, call.ensured = some (.ok downloaded)) →
    state.threads.countP
      (fun call => call.digest = digest ∧ call.ensured = some (.ok true)) = 1

theorem Call.Recorded.outcome_eq {call : Call} (h : call.Recorded)
    (hdone : ¬ call.InProgress) : call.outcome = call.ensured := by
  cases hended : call.phase.ended with
  | true =>
      rw [Call.outcome]
      cases hphase : call.phase <;> rw [hphase] at hended <;> first | rfl | cases hended
  | false =>
      have hnone := h.ensured hended
      rw [Call.InProgress, not_and, not_forall] at hdone
      obtain ⟨lock, hpanicked⟩ := hdone hnone
      rw [Call.outcome, not_not.mp hpanicked]

theorem singleFlight_of_filled {root : PathBuf} {initial : PathBuf → Option Bytes}
    {state : State} (hlocks : Coordinated state) (h : Filled root initial state) :
    SingleFlight root initial state := by
  refine ⟨?_, ?_, ?_, ?_⟩
  · intro call hcall lock hjoined
    obtain ⟨i, hi⟩ := List.mem_iff_getElem?.mp hcall
    have hentry := hlocks.joined i call lock hi hjoined
    obtain ⟨l, hlock, -, hcount⟩ := hlocks.entry call.digest lock hentry
    exact ⟨hentry, l, hlock, hcount⟩
  · intro i j call other lock lock' pending pending' hcall hother hphase hphase' hdigest
    refine hlocks.filling_unique hcall hother hdigest ?_ ?_
    · rw [hphase]
      simp [Phase.filling]
    · rw [hphase']
      simp [Phase.filling]
  · intro digest
    rw [h.created digest]
    split <;> omega
  · intro digest hinitial hdone hsome
    have hsame : ∀ call ∈ state.threads, call.outcome = call.ensured := by
      intro call hcall
      obtain ⟨i, hi⟩ := List.mem_iff_getElem?.mp hcall
      exact (h.recorded i call hi).outcome_eq (hdone call hcall)
    obtain ⟨call, hcall, hdigest, downloaded, hok⟩ := hsome
    obtain ⟨i, hi⟩ := List.mem_iff_getElem?.mp hcall
    have hpresent := h.ok i call downloaded hi ((hsame call hcall).trans hok)
    rw [hdigest] at hpresent
    have hcount := h.reported digest
    rw [if_pos ⟨hinitial, hpresent⟩] at hcount
    rw [← hcount]
    refine List.countP_congr fun other hother => ?_
    simp only [Call.reportsDownload, hsame other hother]

/-- In every state of every interleaving the calls of a digest share one lock, one
call at a time streams it, and one call creates the entry and reports the
download. -/
theorem single_flight [Sha256] (root : PathBuf) (files : PathBuf → Option Bytes)
    (moves : List Move) (state : State)
    (hrun : Transition.run (step root) (start files) moves = some state) :
    SingleFlight root files state := by
  have hinvariant : Coordinated state ∧ Filled root files state := by
    have hkept : ∀ s move s', (Coordinated s ∧ Filled root files s) →
        step root s move = some s' → Coordinated s' ∧ Filled root files s' := by
      intro s move s' h hstep
      exact ⟨h.1.step hstep, h.2.step h.1 hstep⟩
    exact Transition.run_invariant hkept moves (start files) state
      ⟨coordinated_start files, filled_start root files⟩ hrun
  exact singleFlight_of_filled hinvariant.1 hinvariant.2

theorem single_flight_sample :
    letI : Sha256 := Sample.sha256
    ∃ state, Transition.run (step []) (start fun _ => none) Sample.moves = some state ∧
      state.threads.map (fun call => call.ensured) = [some (.ok true), some (.ok false)] ∧
      SingleFlight [] (fun _ => none) state := by
  let _ : Sha256 := Sample.sha256
  obtain ⟨state, hrun, hstate⟩ := Option.map_eq_some_iff.mp Sample.moves_ensured
  exact ⟨state, hrun, hstate, single_flight [] (fun _ => none) Sample.moves state hrun⟩

end Cache

end Session

end RemoteFs
