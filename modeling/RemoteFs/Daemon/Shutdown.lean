import RemoteFs.Daemon.Control

/-!
# The daemon releases its resources exactly once

`places` lists the resources wherever they are: in the slot, in the channel, in
the hands of `serve`, or released. It is the one-element list of the resources
the daemon was started with in every reachable state, so they are never lost
and never duplicated.

The invariant adds what each position of `serve` knows: it waits for a handoff
only after the slot was emptied, it has not returned before a release ended, and
the log is the release order up to the step that is running or has ended the release.
-/

namespace RemoteFs

namespace Daemon

open Cas (Code Status)

/-- Every place the resources are in. -/
def places (d : Daemon) : List DaemonResources :=
  d.slot.toList ++ d.channel ++ d.serve.owned ++ d.released

/-- The log of a release whose last step has just started. -/
def startedLog : ReleaseStep → List ReleaseEvent
  | .unmount => [.started .unmount]
  | .close => [.started .unmount, .finished (.unmount (.ok ())), .started .close]
  | .removeSocket =>
      [.started .unmount, .finished (.unmount (.ok ())), .started .close,
        .finished (.close (.ok (.ok ()))), .started .removeSocket]

/-- The log of a release that ended with an outcome. -/
def endedLog (outcome : ReleaseOutcome) : List ReleaseEvent :=
  startedLog outcome.step ++ [.finished outcome]

theorem startedLog_next {resources : DaemonResources} {outcome : ReleaseOutcome}
    {next : ReleaseStep} (hok : resources.afterStep outcome = .ok ())
    (hnext : outcome.step.next = some next) :
    startedLog outcome.step ++ [.finished outcome, .started next] = startedLog next := by
  cases outcome with
  | unmount joined =>
      cases hnext
      cases joined with
      | ok => rfl
      | error source => cases hok
  | close joined =>
      cases hnext
      cases joined with
      | error source => cases hok
      | ok closed =>
          cases closed with
          | ok => rfl
          | error source => cases hok
  | removeSocket removed => cases hnext

/-- What is known of the rest of the state at a position of `serve`. -/
def Consistent (d : Daemon) : Prop :=
  match d.serve with
  | .selecting => d.released = [] ∧ d.log = []
  | .detaching _ => d.released = [] ∧ d.log = []
  | .receiving _ => d.slot = none ∧ d.released = [] ∧ d.log = []
  | .releasing step _ _ => d.log = startedLog step
  | .draining result _ =>
      d.released ≠ [] ∧ ∃ outcome, d.log = endedLog outcome ∧
        (result = .ok () → outcome.step = .removeSocket)
  | .returned result =>
      d.released ≠ [] ∧ ∃ outcome, d.log = endedLog outcome ∧
        (result = .ok () → outcome.step = .removeSocket)
  | .panicked => False

/-- The ownership invariant. -/
structure Owned (resources : DaemonResources) (d : Daemon) : Prop where
  places_eq : d.places = [resources]
  consistent : d.Consistent

theorem start_owned (resources : DaemonResources) : Owned resources (start resources) where
  places_eq := rfl
  consistent := ⟨rfl, rfl⟩

namespace Owned

variable {resources : DaemonResources} {d : Daemon}

theorem ne_panicked (h : Owned resources d) : d.serve ≠ .panicked := by
  intro hserve
  have hconsistent := h.consistent
  rw [Consistent, hserve] at hconsistent
  exact hconsistent

theorem of_slot {r : DaemonResources} (h : Owned resources d) (hslot : d.slot = some r) :
    r = resources ∧ d.channel = [] ∧ d.serve.owned = [] ∧ d.released = [] := by
  have hplaces := h.places_eq
  rw [places, hslot] at hplaces
  simpa [and_assoc] using hplaces

theorem of_channel {r : DaemonResources} {rest : List DaemonResources}
    (h : Owned resources d) (hchannel : d.channel = r :: rest) :
    r = resources ∧ rest = [] ∧ d.slot = none ∧ d.serve.owned = [] ∧ d.released = [] := by
  have hplaces := h.places_eq
  cases hslot : d.slot with
  | some r' =>
      have hempty := (h.of_slot hslot).2.1
      rw [hchannel] at hempty
      cases hempty
  | none =>
      rw [places, hslot, hchannel] at hplaces
      simpa [and_assoc] using hplaces

theorem of_releasing {step : ReleaseStep} {r : DaemonResources}
    {finishedServer : Option ServerResult} (h : Owned resources d)
    (hserve : d.serve = .releasing step r finishedServer) :
    r = resources ∧ d.slot = none ∧ d.channel = [] ∧ d.released = [] := by
  have hplaces := h.places_eq
  cases hslot : d.slot with
  | some r' =>
      have hempty := (h.of_slot hslot).2.2.1
      rw [hserve, Serve.owned] at hempty
      cases hempty
  | none =>
      cases hchannel : d.channel with
      | cons r' rest =>
          have hempty := (h.of_channel hchannel).2.2.2.1
          rw [hserve, Serve.owned] at hempty
          cases hempty
      | nil =>
          rw [places, hslot, hchannel, hserve, Serve.owned] at hplaces
          simpa using hplaces

theorem alive (h : Owned resources d) (hreleased : d.released = []) :
    d.serve.alive = true := by
  have hconsistent := h.consistent
  rw [Consistent] at hconsistent
  cases hserve : d.serve with
  | selecting => rfl
  | detaching => rfl
  | receiving => rfl
  | releasing => rfl
  | draining => rfl
  | returned =>
      rw [hserve] at hconsistent
      exact absurd hreleased hconsistent.1
  | panicked =>
      rw [hserve] at hconsistent
      exact hconsistent.elim

theorem trySend_eq {r : DaemonResources} (h : Owned resources d) (hslot : d.slot = some r) :
    d.trySend r = .ok [r] := by
  obtain ⟨-, hchannel, -, hreleased⟩ := h.of_slot hslot
  have halive := h.alive hreleased
  rw [trySend, halive, hchannel]
  rfl

theorem recv_eq {finishedServer : Option ServerResult} (h : Owned resources d)
    (hserve : d.serve = .receiving finishedServer) : d.channel = [resources] := by
  have hconsistent := h.consistent
  rw [Consistent, hserve] at hconsistent
  obtain ⟨hslot, hreleased, -⟩ := hconsistent
  have hplaces := h.places_eq
  rw [places, hslot, hserve, hreleased] at hplaces
  simpa [Serve.owned] using hplaces

end Owned

/-! ### Requests -/

theorem validateProtocol_eq_ok_iff (version : UInt32) :
    validateProtocol version = .ok () ↔ version = protocolVersion := by
  rw [validateProtocol]
  split <;> simp_all

/-- What a request does: nothing, or a handoff for a compatible shutdown. -/
theorem handle_state (d : Daemon) (request : Request) :
    (d.handle request).2 = d ∨
      ∃ r, d.slot = some r ∧ request = .shutdown protocolVersion ∧
        (d.handle request).2 =
          match d.trySend r with
          | .error _ => { d with slot := none }
          | .ok channel => { d with slot := none, channel := channel } := by
  cases request with
  | checkProtocol => exact .inl rfl
  | status => exact .inl rfl
  | snapshot => exact .inl rfl
  | shutdown version =>
      rw [handle, shutdown]
      cases hslot : d.slot with
      | none => exact .inl rfl
      | some r =>
          cases hversion : validateProtocol version with
          | error status => exact .inl rfl
          | ok =>
              have hcompatible := (validateProtocol_eq_ok_iff version).mp hversion
              refine .inr ⟨r, rfl, by rw [hcompatible], ?_⟩
              dsimp only
              cases d.trySend r <;> rfl

theorem handle_incompatible (d : Daemon) (request : Request)
    (hversion : request.protocolVersion ≠ protocolVersion) : (d.handle request).2 = d := by
  obtain h | ⟨r, -, hrequest, -⟩ := d.handle_state request
  · exact h
  · rw [hrequest] at hversion
    exact absurd rfl hversion

theorem handle_of_slot_none (d : Daemon) (request : Request) (hslot : d.slot = none) :
    d.handle request = (.error shuttingDown, d) := by
  cases request with
  | checkProtocol version =>
      rw [handle, checkProtocol, activeInfo, hslot]
      rfl
  | status version =>
      rw [handle, status, activeInfo, hslot]
      rfl
  | snapshot version =>
      rw [handle, snapshot, activeInfo, hslot]
      rfl
  | shutdown version =>
      rw [handle, shutdown, hslot]

theorem handle_owned {resources : DaemonResources} {d : Daemon} (request : Request)
    (h : Owned resources d) : Owned resources (d.handle request).2 := by
  obtain hsame | ⟨r, hslot, -, hnext⟩ := d.handle_state request
  · rwa [hsame]
  · obtain ⟨hr, -, howned, hreleased⟩ := h.of_slot hslot
    have hconsistent := h.consistent
    rw [h.trySend_eq hslot] at hnext
    rw [hnext]
    refine ⟨?_, ?_⟩
    · simp only [places, howned, hreleased, hr]
      rfl
    · rw [Consistent] at hconsistent ⊢
      dsimp only
      cases hserve : d.serve with
      | selecting => rwa [hserve] at hconsistent
      | detaching => rwa [hserve] at hconsistent
      | receiving =>
          rw [hserve] at hconsistent
          exact ⟨rfl, hconsistent.2⟩
      | releasing => rwa [hserve] at hconsistent
      | draining => rwa [hserve] at hconsistent
      | returned => rwa [hserve] at hconsistent
      | panicked => rwa [hserve] at hconsistent

/-! ### Steps of `serve` -/

variable {resources : DaemonResources} {d d' : Daemon}

theorem beginRelease_owned (finishedServer : Option ServerResult) (hslot : d.slot = none)
    (hchannel : d.channel = []) (hreleased : d.released = []) (hlog : d.log = []) :
    Owned resources (d.beginRelease resources finishedServer) := by
  refine ⟨?_, ?_⟩
  · simp only [places, beginRelease, hslot, hchannel, hreleased]
    rfl
  · simp only [Consistent, beginRelease, hlog]
    rfl

theorem detachStep_owned {finishedServer : Option ServerResult} (h : Owned resources d)
    (hserve : d.serve = .detaching finishedServer) :
    Owned resources (d.detachStep finishedServer) := by
  have hconsistent := h.consistent
  rw [Consistent, hserve] at hconsistent
  obtain ⟨hreleased, hlog⟩ := hconsistent
  rw [detachStep]
  cases hslot : d.slot with
  | some r =>
      obtain ⟨hr, hchannel, -, -⟩ := h.of_slot hslot
      rw [hr]
      exact beginRelease_owned finishedServer rfl hchannel hreleased hlog
  | none =>
      have hplaces := h.places_eq
      rw [places, hslot, hserve] at hplaces
      exact ⟨hplaces, rfl, hreleased, hlog⟩

theorem receiveStep_owned {finishedServer : Option ServerResult} (h : Owned resources d)
    (hserve : d.serve = .receiving finishedServer)
    (hstep : d.receiveStep finishedServer = some d') : Owned resources d' := by
  have hchannel := h.recv_eq hserve
  obtain ⟨-, -, hslot, -, hreleased⟩ := h.of_channel hchannel
  have hconsistent := h.consistent
  rw [Consistent, hserve] at hconsistent
  rw [receiveStep, recv, hchannel] at hstep
  cases hstep
  exact beginRelease_owned finishedServer hslot rfl hreleased hconsistent.2.2

theorem selectResources_owned (h : Owned resources d)
    (hstep : d.step .selectResources = some d') : Owned resources d' := by
  have hconsistent := h.consistent
  simp only [step, recv] at hstep
  split at hstep
  case h_1 hserve hrecv =>
    rw [Consistent, hserve] at hconsistent
    split at hrecv
    · rename_i r rest hchannel
      obtain ⟨hr, hrest, hslot, -, hreleased⟩ := h.of_channel hchannel
      cases hrecv
      cases hstep
      rw [hr]
      exact beginRelease_owned none hslot hrest hreleased hconsistent.2
    · split at hrecv <;> cases hrecv
  case h_2 => cases hstep

theorem afterRelease_owned {r : DaemonResources} {finishedServer : Option ServerResult}
    (outcome : ReleaseOutcome) (h : Owned resources d)
    (hserve : d.serve = .releasing outcome.step r finishedServer) :
    Owned resources (d.afterRelease r finishedServer outcome) := by
  obtain ⟨hr, hslot, hchannel, hreleased⟩ := h.of_releasing hserve
  have hlog := h.consistent
  rw [Consistent, hserve] at hlog
  unfold afterRelease
  split
  case h_1 next hok hnext =>
    refine ⟨?_, ?_⟩
    · simp only [places, hslot, hchannel, hreleased, hr]
      rfl
    · simp only [Consistent, hlog]
      exact startedLog_next hok hnext
  case h_2 hended =>
    refine ⟨?_, ?_⟩
    · simp only [places, hslot, hchannel, hreleased, hr]
      rfl
    · refine ⟨by simp, outcome, by simp only [hlog, endedLog], fun hok => ?_⟩
      cases outcome with
      | unmount => exact absurd rfl (hended .close hok)
      | close => exact absurd rfl (hended .removeSocket hok)
      | removeSocket => rfl

theorem serveResult_eq_ok_iff (releaseResult : Except ControlError Unit)
    (serverResult : ServerResult) :
    serveResult releaseResult serverResult = .ok () ↔
      releaseResult = .ok () ∧ serverResult = .ok () := by
  cases serverResult with
  | ok => simp [serveResult]
  | error => simp [serveResult]

theorem stopServer_owned (h : Owned resources d)
    (hstep : d.step .stopServer = some d') : Owned resources d' := by
  have hplaces := h.places_eq
  have hconsistent := h.consistent
  simp only [step] at hstep
  split at hstep
  case h_1 releaseResult finishedServer hserve =>
    rw [places, hserve] at hplaces
    rw [Consistent, hserve] at hconsistent
    obtain ⟨hreleased, outcome, hlog, hlast⟩ := hconsistent
    split at hstep
    · cases hstep
      refine ⟨hplaces, hreleased, outcome, hlog, fun hok => ?_⟩
      exact hlast ((serveResult_eq_ok_iff _ _).mp hok).1
    · cases hstep
  case h_2 => cases hstep

theorem step_owned (a : Action) (h : Owned resources d) (hstep : d.step a = some d') :
    Owned resources d' := by
  have hplaces := h.places_eq
  have hconsistent := h.consistent
  cases a with
  | request request =>
      cases hstep
      exact handle_owned request h
  | signal kind =>
      cases hstep
      exact ⟨hplaces, hconsistent⟩
  | serverExits result =>
      simp only [step] at hstep
      split at hstep <;> cases hstep
      exact ⟨hplaces, hconsistent⟩
  | cloneService =>
      simp only [step] at hstep
      split at hstep <;> cases hstep
      exact ⟨hplaces, hconsistent⟩
  | dropClone =>
      simp only [step] at hstep
      split at hstep <;> cases hstep
      exact ⟨hplaces, hconsistent⟩
  | selectResources => exact selectResources_owned h hstep
  | selectSignal kind =>
      simp only [step] at hstep
      split at hstep
      case h_1 hserve =>
        rw [places, hserve] at hplaces
        rw [Consistent, hserve] at hconsistent
        split at hstep <;> cases hstep
        exact ⟨hplaces, hconsistent⟩
      case h_2 => cases hstep
  | selectServer =>
      simp only [step] at hstep
      split at hstep
      case h_1 hserve hserver =>
        rw [places, hserve] at hplaces
        rw [Consistent, hserve] at hconsistent
        cases hstep
        exact ⟨hplaces, hconsistent⟩
      case h_2 => cases hstep
  | detach =>
      simp only [step] at hstep
      split at hstep
      case h_1 hserve =>
        cases hstep
        exact detachStep_owned h hserve
      case h_2 => cases hstep
  | receive =>
      simp only [step] at hstep
      split at hstep
      case h_1 hserve => exact receiveStep_owned h hserve hstep
      case h_2 => cases hstep
  | finishStep outcome =>
      simp only [step] at hstep
      split at hstep
      case h_1 hserve =>
        split at hstep
        · next houtcome =>
            cases hstep
            exact afterRelease_owned outcome h (houtcome ▸ hserve)
        · cases hstep
      case h_2 => cases hstep
  | stopServer => exact stopServer_owned h hstep

theorem run_owned (as : List Action) (d : Daemon)
    (hrun : Transition.run step (start resources) as = some d) : Owned resources d :=
  Transition.run_invariant (fun _ a _ h hstep => step_owned a h hstep) as _ d
    (start_owned resources) hrun

/-! ### What the invariant gives -/

theorem step_slot_none (a : Action) (hstep : d.step a = some d') (hslot : d.slot = none) :
    d'.slot = none := by
  cases a with
  | request request =>
      cases hstep
      rw [d.handle_of_slot_none request hslot]
      exact hslot
  | signal kind =>
      cases hstep
      exact hslot
  | finishStep outcome =>
      simp only [step, afterRelease] at hstep
      repeat' split at hstep
      all_goals cases hstep
      all_goals exact hslot
  | serverExits | cloneService | dropClone | selectResources | selectSignal | selectServer
  | detach | receive | stopServer =>
      simp only [step, detachStep, receiveStep, beginRelease, hslot] at hstep
      repeat' split at hstep
      all_goals cases hstep
      all_goals rfl

theorem run_slot_none (as : List Action) (hslot : d.slot = none)
    (hrun : Transition.run step d as = some d') : d'.slot = none :=
  Transition.run_invariant (fun _ a _ h hstep => step_slot_none a hstep h) as d d' hslot hrun

/-- Every occurrence of an event in a log comes after another event. -/
def Precedes (first later : ReleaseEvent) (log : List ReleaseEvent) : Prop :=
  ∀ before after, log = before ++ later :: after → first ∈ before

@[simp] theorem precedes_nil (first later : ReleaseEvent) : Precedes first later [] := by
  intro before after h
  simp at h

@[simp] theorem precedes_cons_iff (first later e : ReleaseEvent) (log : List ReleaseEvent) :
    Precedes first later (e :: log) ↔ e ≠ later ∧ (e = first ∨ Precedes first later log) := by
  constructor
  · intro h
    refine ⟨fun hlater => ?_, ?_⟩
    · have hmem := h [] log (by rw [hlater, List.nil_append])
      cases hmem
    · by_cases hfirst : e = first
      · exact .inl hfirst
      · refine .inr fun before after hlog => ?_
        have hmem := h (e :: before) after (by rw [hlog, List.cons_append])
        exact (List.mem_cons.mp hmem).resolve_left (Ne.symm hfirst)
  · rintro ⟨hlater, h⟩ before after hlog
    cases before with
    | nil =>
        obtain ⟨he, -⟩ := List.cons.inj hlog
        exact absurd he hlater
    | cons e' before =>
        obtain ⟨rfl, htail⟩ := List.cons.inj hlog
        obtain hfirst | h := h
        · exact List.mem_cons.mpr (.inl hfirst.symm)
        · exact List.mem_cons_of_mem _ (h before after htail)

/-- The logs of a release: none yet, up to a running step, up to the last outcome. -/
theorem Consistent.log_cases (h : d.Consistent) :
    d.log = [] ∨ (∃ step, d.log = startedLog step) ∨ ∃ outcome, d.log = endedLog outcome := by
  rw [Consistent] at h
  cases hserve : d.serve with
  | selecting =>
      rw [hserve] at h
      exact .inl h.2
  | detaching =>
      rw [hserve] at h
      exact .inl h.2
  | receiving =>
      rw [hserve] at h
      exact .inl h.2.2
  | releasing step =>
      rw [hserve] at h
      exact .inr (.inl ⟨step, h⟩)
  | draining result =>
      rw [hserve] at h
      obtain ⟨-, outcome, hlog, -⟩ := h
      exact .inr (.inr ⟨outcome, hlog⟩)
  | returned =>
      rw [hserve] at h
      obtain ⟨-, outcome, hlog, -⟩ := h
      exact .inr (.inr ⟨outcome, hlog⟩)
  | panicked =>
      rw [hserve] at h
      exact h.elim

/-- A release step starts at most once, and only after the work of the step before it was
done. -/
structure InReleaseOrder (log : List ReleaseEvent) : Prop where
  closed_after_unmount : Precedes (.finished (.unmount (.ok ()))) (.started .close) log
  removed_after_close : Precedes (.finished (.close (.ok (.ok ())))) (.started .removeSocket) log
  once : log.Nodup

theorem startedLog_inReleaseOrder (step : ReleaseStep) : InReleaseOrder (startedLog step) := by
  cases step <;> constructor <;> simp [startedLog]

theorem endedLog_inReleaseOrder (outcome : ReleaseOutcome) :
    InReleaseOrder (endedLog outcome) := by
  cases outcome <;> constructor <;> simp [endedLog, startedLog, ReleaseOutcome.step]

theorem Consistent.inReleaseOrder (h : d.Consistent) : InReleaseOrder d.log := by
  obtain hlog | ⟨step, hlog⟩ | ⟨outcome, hlog⟩ := h.log_cases
  · rw [hlog]
    exact ⟨precedes_nil _ _, precedes_nil _ _, List.nodup_nil⟩
  · rw [hlog]
    exact startedLog_inReleaseOrder step
  · rw [hlog]
    exact endedLog_inReleaseOrder outcome

structure ReleasesOnce (resources : DaemonResources) (d : Daemon) : Prop where
  one_place : d.places = [resources]
  handoff_ok : ∀ r, d.slot = some r → d.trySend r = .ok [r]
  receive_ready : ∀ finishedServer, d.serve = .receiving finishedServer →
    d.recv = .value resources []
  no_panic : d.serve ≠ .panicked
  incompatible_keeps : ∀ request : Request, request.protocolVersion ≠ protocolVersion →
    (d.handle request).2 = d
  unavailable : d.slot = none → ∀ as d', Transition.run step d as = some d' →
    ∀ request, d'.handle request = (.error shuttingDown, d')
  release_order : InReleaseOrder d.log
  returned_released : ∀ result, d.serve = .returned result → d.released = [resources]
  returned_ok : d.serve = .returned (.ok ()) → ∃ removed, d.log = endedLog (.removeSocket removed)

theorem Owned.of_returned {result : Except ControlError Unit} (h : Owned resources d)
    (hserve : d.serve = .returned result) : d.released = [resources] := by
  have hconsistent := h.consistent
  rw [Consistent, hserve] at hconsistent
  have hplaces := h.places_eq
  cases hslot : d.slot with
  | some r => exact absurd (h.of_slot hslot).2.2.2 hconsistent.1
  | none =>
      cases hchannel : d.channel with
      | cons r rest => exact absurd (h.of_channel hchannel).2.2.2.2 hconsistent.1
      | nil =>
          rw [places, hslot, hchannel, hserve] at hplaces
          simpa [Serve.owned] using hplaces

/-- `serve` succeeds only when `release` got to its last step. -/
theorem Owned.log_of_returned_ok (h : Owned resources d) (hserve : d.serve = .returned (.ok ())) :
    ∃ removed, d.log = endedLog (.removeSocket removed) := by
  have hconsistent := h.consistent
  rw [Consistent, hserve] at hconsistent
  obtain ⟨-, outcome, hlog, hlast⟩ := hconsistent
  have hstep := hlast rfl
  cases outcome with
  | unmount joined => cases hstep
  | close joined => cases hstep
  | removeSocket removed => exact ⟨removed, hlog⟩

/-- In every interleaving of requests, signals, a server exit and the steps of
`serve`, the resources are in exactly one place and are released at most once, in
order; the handoff never fails and never blocks. -/
theorem serve_releases_once (resources : DaemonResources) (as : List Action) (d : Daemon)
    (hrun : Transition.run step (start resources) as = some d) :
    ReleasesOnce resources d := by
  have h : Owned resources d := run_owned as d hrun
  exact
    { one_place := h.places_eq
      handoff_ok := fun _ hslot => h.trySend_eq hslot
      receive_ready := fun _ hserve => by rw [recv, h.recv_eq hserve]
      no_panic := h.ne_panicked
      incompatible_keeps := d.handle_incompatible
      unavailable := fun hslot as' d' hrun' request =>
        d'.handle_of_slot_none request (run_slot_none as' hslot hrun')
      release_order := h.consistent.inReleaseOrder
      returned_released := fun _ hserve => h.of_returned hserve
      returned_ok := h.log_of_returned_ok }

namespace Sample

def daemonResources : DaemonResources where
  session :=
    { rootDigest := Digest.Sample.contentDigest
      mountpoint := [.utf8 "", .utf8 "mnt"]
      daemonPid := 7
      controlEndpoint := [.utf8 "", .utf8 "home", .utf8 "control.sock"]
      closed := false }
  mount := [.utf8 "", .utf8 "mnt"]
  socket := [.utf8 "", .utf8 "home", .utf8 "control.sock"]

/-- A signal wins the `select!`, a shutdown request detaches first, and the
socket is already gone. -/
def actions : List Action :=
  [.request (.shutdown 2), .signal .terminate, .selectSignal .terminate,
    .request (.shutdown 1), .request (.status 1), .detach, .receive,
    .finishStep (.unmount (.ok ())), .finishStep (.close (.ok (.ok ()))),
    .finishStep (.removeSocket (.error (.notFound, "no such file"))),
    .serverExits (.ok ()), .stopServer]

end Sample

theorem serve_releases_once_sample :
    ∃ d, Transition.run step (start Sample.daemonResources) Sample.actions = some d ∧
      d.serve = .returned (.ok ()) ∧ ReleasesOnce Sample.daemonResources d := by
  refine ⟨_, rfl, rfl, ?_⟩
  exact serve_releases_once Sample.daemonResources Sample.actions _ rfl

end Daemon

end RemoteFs
