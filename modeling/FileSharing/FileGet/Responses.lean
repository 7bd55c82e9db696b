/-
FileSharing.FileGet.Responses — `ResponseReceived` is emitted at most once
per id, and only for ids that `send_request` returned.

Between the handler event `Response` and the moment the application sees
`ResponseReceived` the event is in the behaviour's queue. `Answered` is
the invariant of that queue: the ids of the queued responses are distinct,
the generator has handed them out, and none of their requests is pending
any more. So the application that keeps a table of its open requests finds
every response there, and finds it once.
-/
import FileSharing.FileGet.Pipeline

namespace FileSharing

open Lib FileGet

/-! ## Queued responses -/

/-- The id an action reports a response for. -/
def NetworkBehaviourAction.response? : NetworkBehaviourAction → Option RequestId
  | .generateEvent (.responseReceived _ r) => some r
  | _ => none

/-- The ids of the responses in the queue, oldest first. -/
def FileGet.responses (s : FileGet) : List RequestId :=
  s.pendingEvents.filterMap (·.response?)

/-- The queued responses are distinct, were asked for, and are pending no
more. -/
structure Answered (n : Nat) (s : FileGet) : Prop where
  nodup : s.responses.Nodup
  drawn : ∀ r ∈ s.responses, ∃ k < n, r = .nth k
  gone : ∀ r ∈ s.responses, ∀ p, ¬ s.Pending p r

/-- What a step can do to the queued responses. -/
inductive ResponsesMoved (s s' : System) : Label → Prop where
  | same (a : Label) : s'.fileGet.responses = s.fileGet.responses → ResponsesMoved s s' a
  /-- A handler reports a response. -/
  | queued (l : Link) (r : RequestId) (rest : List FileGetHandlerEvent) :
      l ∈ s.links → l.events = .response r :: rest →
      s'.fileGet = s.fileGet.afterEvent l.peer l.id (.response r) →
      ResponsesMoved s s' (.deliverEvent l.id)
  /-- The oldest action is handed out. -/
  | polled (action : NetworkBehaviourAction) (rest : List NetworkBehaviourAction) :
      s.fileGet.pendingEvents = action :: rest → s'.fileGet.pendingEvents = rest →
      ResponsesMoved s s' .pollBehaviour

theorem FileGet.responses_of_append {s s' : FileGet} {actions : List NetworkBehaviourAction}
    (h : s'.pendingEvents = s.pendingEvents ++ actions) :
    s'.responses = s.responses ++ actions.filterMap (·.response?) := by
  unfold responses
  rw [h, List.filterMap_append]

theorem NetworkBehaviourAction.response?_of_isPlain {action : NetworkBehaviourAction}
    (h : action.isPlain = true) : action.response? = none := by
  cases action with
  | generateEvent event => cases event <;> first | rfl | cases h
  | dial _ _ | notifyHandler _ _ _ => rfl

/-- **Inversion**: what a step does to the queued responses. -/
theorem stepped_responses {s s' : System} {a : Label} (h : Stepped s a s') :
    ResponsesMoved s s' a := by
  have hother : ∀ actions : List NetworkBehaviourAction,
      s'.fileGet.pendingEvents = s.fileGet.pendingEvents ++ actions →
      (∀ x ∈ actions, x.response? = none) → ResponsesMoved s s' a := by
    intro actions happ hall
    refine .same a ?_
    rw [responses_of_append happ, List.filterMap_eq_nil_iff.mpr hall, List.append_nil]
  cases stepped_queued h with
  | added a actions happ hplain =>
    exact hother actions happ fun x hx =>
      NetworkBehaviourAction.response?_of_isPlain (hplain x hx)
  | reported l e rest hl hev heq =>
    cases e with
    | response r => exact .queued l r rest hl hev heq
    | _ =>
      refine hother _ (heq ▸ afterEvent_pendingEvents _) ?_
      simp [FileGetHandlerEvent.report, NetworkBehaviourAction.response?]
  | polled action rest hq hrest => exact .polled action rest hq hrest

namespace Answered

variable {n : Nat} {s s' : System} {a : Label}

/-- The request a response completes is pending nowhere afterwards. -/
theorem afterEvent_not_pending (hm : Mirror s) (hp : Placed n s.fileGet) {l : Link}
    {r : RequestId} (hwait : s.fileGet.Waiting l.peer l.id r) (p : PeerId) :
    ¬ (s.fileGet.afterEvent l.peer l.id (.response r)).Pending p r := by
  have hpend : s.fileGet.Pending l.peer r := Or.inr ⟨l.id, hwait⟩
  rintro (⟨request, hmem, rfl⟩ | ⟨c, hc⟩)
  · have hbuf : s.fileGet.Buffered p request.requestId :=
      ⟨request, by simpa [afterEvent] using hmem, rfl⟩
    have hpeer : p = l.peer := hp.onePeer (Or.inl hbuf) hpend
    subst hpeer
    exact hp.notBoth hbuf hwait
  · obtain ⟨hold, hne⟩ := (afterEvent_waiting hm.wf _).mp hc
    have hpeer : p = l.peer := hp.onePeer (Or.inr ⟨c, hold⟩) hpend
    subst hpeer
    exact hne ⟨rfl, hp.oneConnection hold hwait, rfl⟩

/-- A queued id is not made pending by a step. -/
theorem still_gone (ha : Answered n s.fileGet) (hm : Mirror s) (hp : Placed n s.fileGet)
    (h : Stepped s a s') (hn : (if a.isSend then n + 1 else n) ≤ UInt64.size) {r : RequestId}
    (hr : r ∈ s.fileGet.responses) (p : PeerId) : ¬ s'.fileGet.Pending p r := by
  intro hpend
  rcases pending_before (t := ⟨s, a, s'⟩) hm h hpend with hpre | hret
  · exact ha.gone r hr p hpre
  · -- the step would have returned the id a second time
    obtain ⟨m, w, hlabel, rfl⟩ := (returned_eq_some (t := ⟨s, a, s'⟩) hm).mp hret
    dsimp only at hlabel hr
    subst hlabel
    obtain ⟨k, hk, heq⟩ := ha.drawn _ hr
    rw [hp.generator] at heq
    have hlt : n < UInt64.size := hn
    have := RequestId.nth_inj hlt (Nat.lt_trans hk hlt) heq
    omega

theorem drawn_mono {m : Nat} (hle : n ≤ m) {r : RequestId} (h : ∃ k < n, r = .nth k) :
    ∃ k < m, r = .nth k := by
  obtain ⟨k, hk, hr⟩ := h
  exact ⟨k, Nat.lt_of_lt_of_le hk hle, hr⟩

theorem step (ha : Answered n s.fileGet) (hm : Mirror s) (hp : Placed n s.fileGet)
    (hi : InFlight s) (h : Stepped s a s')
    (hn : (if a.isSend then n + 1 else n) ≤ UInt64.size) :
    Answered (if a.isSend then n + 1 else n) s'.fileGet := by
  have hle : n ≤ if a.isSend then n + 1 else n := by split <;> omega
  cases stepped_responses h with
  | same _ heq =>
    exact
      { nodup := heq ▸ ha.nodup
        drawn := fun r hr => drawn_mono hle (ha.drawn r (heq ▸ hr))
        gone := fun r hr => ha.still_gone hm hp h hn (heq ▸ hr) }
  | queued l r rest hl hev heq =>
    have hwait : s.fileGet.Waiting l.peer l.id r := completes_waiting hi hl hev rfl
    have hpend : s.fileGet.Pending l.peer r := Or.inr ⟨l.id, hwait⟩
    have hresp : s'.fileGet.responses = s.fileGet.responses ++ [r] := by
      rw [heq]
      exact responses_of_append (afterEvent_pendingEvents _)
    refine ⟨?_, fun x hx => ?_, fun x hx => ?_⟩
    · rw [hresp]
      refine ha.nodup.append (List.nodup_singleton r) fun x hx hr => ?_
      rw [List.mem_singleton.mp hr] at hx
      exact ha.gone r hx _ hpend
    · rw [hresp] at hx
      rcases List.mem_append.mp hx with hx | hx
      · exact drawn_mono hle (ha.drawn x hx)
      · rw [List.mem_singleton.mp hx]
        exact drawn_mono hle (hp.drawn hpend)
    · rw [hresp] at hx
      rcases List.mem_append.mp hx with hx | hx
      · exact ha.still_gone hm hp h hn hx
      · rw [List.mem_singleton.mp hx, heq]
        exact afterEvent_not_pending hm hp hwait
  | polled action rest hq hrest =>
    have hsub : s'.fileGet.responses.Sublist s.fileGet.responses := by
      unfold FileGet.responses
      rw [hq, hrest]
      exact (List.sublist_cons_self action rest).filterMap _
    exact
      { nodup := hsub.nodup ha.nodup
        drawn := fun r hr => drawn_mono hle (ha.drawn r (hsub.mem hr))
        gone := fun r hr => ha.still_gone hm hp h hn (hsub.mem hr) }

end Answered

theorem answered_init (config : FileGetConfig) : Answered 0 (fromConfig config) where
  nodup := List.nodup_nil
  drawn r hr := by simp [fromConfig, responses] at hr
  gone r hr := by simp [fromConfig, responses] at hr

variable {config : FileGetConfig} {debug : Bool} {tr : Trace System Label} {s : System}

/-- **In every run the queued responses are distinct and settled.** -/
theorem run_answered (h : (fileGetSystem config debug).Run tr s) (hn : sends tr ≤ UInt64.size) :
    Answered (sends tr) s.fileGet := by
  induction tr generalizing s with
  | nil => cases h; exact answered_init config
  | cons t tr ih =>
    obtain ⟨hrun, -, -, rfl⟩ := h.tail
    obtain ⟨hm, hstep⟩ := run_stepped h
    have hn' := Nat.le_trans (sends_tail_le t tr) hn
    rw [sends_cons] at hn ⊢
    exact (ih hrun hn').step hm (run_placed hrun hn') (run_inFlight hrun hn') hstep hn

/-! ## Requests that can still be answered -/

/-- The request is pending, or its response is on the way to the
application. -/
def FileGet.Answerable (s : FileGet) (r : RequestId) : Prop :=
  (∃ p, s.Pending p r) ∨ r ∈ s.responses

/-- What can be answered after a step could be answered before, or is the
request the step made. -/
theorem answerable_before {s' : System} {a : Label} (hm : Mirror s) (hi : InFlight s)
    (h : Stepped s a s') {r : RequestId} (hr : s'.fileGet.Answerable r) :
    s.fileGet.Answerable r ∨ ∃ p, returned ⟨s, a, s'⟩ = some (p, r) := by
  rcases hr with ⟨p, hp⟩ | hr
  · rcases pending_before (t := ⟨s, a, s'⟩) hm h hp with hp | hret
    · exact Or.inl (Or.inl ⟨p, hp⟩)
    · exact Or.inr ⟨p, hret⟩
  · left
    cases stepped_responses h with
    | same _ heq => exact Or.inr (heq ▸ hr)
    | queued l x rest hl hev heq =>
      rw [heq, responses_of_append (afterEvent_pendingEvents _)] at hr
      rcases List.mem_append.mp hr with hr | hr
      · exact Or.inr hr
      · obtain rfl : r = x := List.mem_singleton.mp hr
        exact Or.inl ⟨l.peer, Or.inr ⟨l.id, completes_waiting hi hl hev rfl⟩⟩
    | polled action rest hq hrest =>
      right
      unfold FileGet.responses at hr ⊢
      rw [hq]
      rw [hrest] at hr
      exact ((List.sublist_cons_self action rest).filterMap _).mem hr

/-- A response that is handed out cannot come again. -/
theorem Answered.not_answerable {n : Nat} {s' : System} {p : PeerId} {r : RequestId}
    {rest : List NetworkBehaviourAction} (ha : Answered n s.fileGet) (hm : Mirror s)
    (hq : s.fileGet.pendingEvents = .generateEvent (.responseReceived p r) :: rest)
    (h : Stepped s .pollBehaviour s') : ¬ s'.fileGet.Answerable r := by
  have hresp : s.fileGet.responses = r :: rest.filterMap (·.response?) := by
    simp [FileGet.responses, hq, NetworkBehaviourAction.response?]
  have hmem : r ∈ s.fileGet.responses := hresp ▸ List.mem_cons_self
  rintro (⟨q, hpend⟩ | hr)
  · rcases pending_before (t := ⟨s, _, s'⟩) hm h hpend with hpend | hret
    · exact ha.gone r hmem q hpend
    · cases hret
  · have hrest : s'.fileGet.pendingEvents = rest := by
      cases h with
      | pollIdle hnil =>
        rw [hnil] at hq
        cases hq
      | pollReady action rest' hq' =>
        rw [hq'] at hq
        rw [System.perform_fileGet, (List.cons.inj hq).2]
      | link _ _ _ hf => cases hf
    have hnodup := ha.nodup
    rw [hresp] at hnodup
    unfold FileGet.responses at hr
    rw [hrest] at hr
    exact (List.nodup_cons.mp hnodup).1 hr

/-- The step gives a pending request up: a dial for it failed, its
connection closed, its substream failed. -/
def FailsRequest (s : System) : Label → Prop
  | .dialFailure (some p) _ => s.fileGet.buffer p ≠ []
  | .connectionClosed p c _ _ => ∃ r, s.fileGet.Waiting p c r
  | .deliverEvent c => ∃ l e rest r, s.link? c = some l ∧ l.events = e :: rest ∧
      e.completes = some r ∧ e ≠ .response r
  | _ => False

/-- A request that can be answered can be answered after a step too, unless
the step gives requests up or hands out the response. -/
theorem answerable_after {s' : System} {a : Label} (hm : Mirror s) (h : Stepped s a s')
    (hno : ¬ FailsRequest s a) {r : RequestId} (hr : s.fileGet.Answerable r)
    (hout : ∀ action rest, a = .pollBehaviour → s.fileGet.pendingEvents = action :: rest →
      action.response? ≠ some r) : s'.fileGet.Answerable r := by
  rcases hr with ⟨p, hp⟩ | hr
  · rcases (stepped_moved hm h).pending_or_leaves hp with hp | hleaves
    · exact Or.inl ⟨p, hp⟩
    · cases hleaves with
      | dialFailed resolves hb _ =>
        obtain ⟨request, hmem, -⟩ := hb
        exact absurd (List.ne_nil_of_mem hmem) hno
      | closed o i conn _ hc _ => exact absurd ⟨r, hc⟩ hno
      | completed l e rest _ hl hev hx hq =>
        right
        -- the event has to be a response
        have he : e = .response r := by
          by_contra hne
          exact hno ⟨l, e, rest, r, hl, hev, hx, hne⟩
        rw [responses_of_append hq, he]
        exact List.mem_append_right _ (List.mem_singleton.mpr rfl)
  · right
    cases stepped_responses h with
    | same _ heq => exact heq ▸ hr
    | queued l x rest hl hev heq =>
      rw [heq, responses_of_append (afterEvent_pendingEvents _)]
      exact List.mem_append_left _ hr
    | polled action rest hq hrest =>
      obtain ⟨action', hmem, hresp⟩ := List.mem_filterMap.mp hr
      rw [hq] at hmem
      rcases List.mem_cons.mp hmem with rfl | hmem
      · exact absurd hresp (hout _ rest rfl hq)
      · exact List.mem_filterMap.mpr ⟨action', hrest.symm ▸ hmem, hresp⟩

end FileSharing
