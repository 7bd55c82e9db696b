/-
FileSharing.Network.LostCommands — commands that can never be answered.

A stored command leaves the store by being answered, and by nothing else
(`NodeStepped.stored_after`). What answers a `GetFile` is the response to
the request its handling sent. `FileGet` reports a request that fails, as a
failed dial, a closed connection or an upgrade that did not end well, and
the loop ignores all of these reports: the last arm of `handle_event`. So
from the step that fails the request on, nothing is left that could answer
the command. `failed_getFile_never_answered` says this of every later state
of every run: the command stays stored, its entry stays in
`pending_file_gets`, and nothing is ever sent on its sender.
-/
import FileSharing.Network.AnswerMatching
import FileSharing.Network.Answers

namespace FileSharing

open Lib FileGet

/-! ## What a step does to the store -/

namespace NodeStepped

variable {config : FileGetConfig} {fits : String → Bool} {debug : Bool} {n n' : Node}
  {a : NodeLabel} {k : UInt64} {x : CommandRequest}

/-- A stored command was stored before, or is the one just received. -/
theorem stored_before (h : NodeStepped fits debug n a n')
    (hx : n'.loop.pendingCommandRequests.lookup k = some x) :
    n.loop.pendingCommandRequests.lookup k = some x ∨ ∃ env, a = .command x env := by
  cases h with
  | failed request env e _ | answered request env result _ => exact Or.inl hx
  | listPeers request env _ _ _ | listFiles request env _ _ _ _
  | getFile request env _ _ _ _ _ _ _ _ _ _ =>
    rcases lookup_of_insert hx with hold | rfl
    · exact Or.inl hold
    · exact Or.inr ⟨env, rfl⟩
  | quiet event env _ _ _ => exact Or.inl (n.settle_loop event ▸ hx)
  | lost what _ => exact Or.inl (n.close_loop what ▸ hx)
  | notListed _ _ _ _ _ | polled _ _ _ _ _ | served _ _ _ _ _ _ _ _ _ _ _
  | notServed _ _ _ _ _ _ _ _ _ _ _ | swarm _ _ _ _ _ | dropSwarm _ => exact Or.inl hx
  | discovered registrations env =>
    rcases EventLoop.Correlated.discovered_lookup (l := n.loop) env registrations k with
      ⟨heq, -⟩ | ⟨hnone, -⟩
    · exact Or.inl (heq ▸ hx)
    · rw [hnone] at hx
      cases hx
  | listed _ _ _ _ _ _ _ _ | fetched _ _ _ _ _ _ _ _ _ _ _ _ => exact Or.inl (lookup_of_erase hx)

/-- A stored command stays stored, or it is answered. -/
theorem stored_after (hc : Consistent config debug n) (ha : n.Allowed a = true)
    (h : NodeStepped fits debug n a n')
    (hx : n.loop.pendingCommandRequests.lookup k = some x) :
    n'.loop.pendingCommandRequests.lookup k = some x ∨
      ∃ result, (x.responseSender, result) ∈ n'.answered := by
  have hstored : ∀ request env, a = .command request env →
      (n.loop.store request).pendingCommandRequests.lookup k = some x := by
    rintro request env rfl
    obtain ⟨-, hnew, -⟩ := Node.allowed_command ha
    have hne : k ≠ request.commandRequestId := by
      rintro rfl
      rw [hc.lookup_new hnew] at hx
      cases hx
    exact (lookup_store_ne hne).trans hx
  cases h with
  | failed request env e _ | answered request env result _ => exact Or.inl hx
  | listPeers request env _ _ _ | listFiles request env _ _ _ _
  | getFile request env _ _ _ _ _ _ _ _ _ _ =>
    exact Or.inl (hstored request env rfl)
  | quiet event env _ _ _ => exact Or.inl ((n.settle_loop event).symm ▸ hx)
  | lost what _ => exact Or.inl ((n.close_loop what).symm ▸ hx)
  | notListed _ _ _ _ _ | polled _ _ _ _ _ | served _ _ _ _ _ _ _ _ _ _ _
  | notServed _ _ _ _ _ _ _ _ _ _ _ | swarm _ _ _ _ _ | dropSwarm _ => exact Or.inl hx
  | discovered registrations env =>
    by_cases hcmd : x.command = .listPeers
    · obtain ⟨result, hresult⟩ := EventLoop.exists_discoveredAnswer hx hcmd env registrations
      exact Or.inr ⟨result, List.mem_append_left _ (List.mem_reverse.mpr hresult)⟩
    · rcases EventLoop.Correlated.discovered_lookup (l := n.loop) env registrations k with
        ⟨heq, -⟩ | ⟨-, found, hfound, hlist⟩
      · exact Or.inl (heq.trans hx)
      · rw [hx] at hfound
        obtain rfl := Option.some.inj hfound
        exact absurd hlist hcmd
  | listed peer i fileNames env k' request hi hk
  | fetched env peer r rest k' request _ _ swarm hq hs hawait =>
    have hstays : k ≠ k' → (n.loop.pendingCommandRequests.erase k').lookup k = some x := by
      intro hne
      rw [lookup_erase_ite, if_neg hne]
      exact hx
    by_cases hk' : k = k'
    · subst hk'
      right
      first
        | rw [hk] at hx
        | rw [hawait.2.1] at hx
      obtain rfl := Option.some.inj hx
      exact ⟨_, List.mem_cons_self⟩
    · exact Or.inl (hstays hk')

/-- What was answered stays answered. -/
theorem answered_suffix (h : NodeStepped fits debug n a n') : n.answered <:+ n'.answered := by
  cases h with
  | failed _ _ _ _ | listPeers _ _ _ _ _ | listFiles _ _ _ _ _ _ | getFile _ _ _ _ _ _ _ _ _ _ _ _
  | notListed _ _ _ _ _ | polled _ _ _ _ _ | served _ _ _ _ _ _ _ _ _ _ _
  | notServed _ _ _ _ _ _ _ _ _ _ _ | swarm _ _ _ _ _ | dropSwarm _ => exact List.suffix_rfl
  | quiet event env _ _ _ =>
    have hanswered := n.settle_answered event
    exact hanswered ▸ List.suffix_rfl
  | lost what _ =>
    have hanswered := n.close_answered what
    exact hanswered ▸ List.suffix_rfl
  | answered _ _ _ _ | listed _ _ _ _ _ _ _ _ | fetched _ _ _ _ _ _ _ _ _ _ _ _ =>
    exact List.suffix_cons _ _
  | discovered registrations env => exact List.suffix_append _ _

end NodeStepped

/-! ## Requests that fail -/

/-- The step fails request `r` to `p`: the dial it is buffered behind
failed, the connection it waits on closed, or its handler reports anything
but a response to it. -/
inductive FailsFileGet (s : System) (p : PeerId) (r : RequestId) : Label → Prop where
  | dialFailed (resolves : Bool) : s.fileGet.Buffered p r →
      FailsFileGet s p r (.dialFailure (some p) resolves)
  | closed (c : ConnectionId) (o i : IterOrder RequestId) : s.fileGet.Waiting p c r →
      FailsFileGet s p r (.connectionClosed p c o i)
  | ended (l : Link) (e : FileGetHandlerEvent) (rest : List FileGetHandlerEvent) :
      s.link? l.id = some l → l.peer = p → l.events = e :: rest → e.completes = some r →
      e ≠ .response r → FailsFileGet s p r (.deliverEvent l.id)

section Inversions

variable {s s' : System} {p : PeerId} {c : ConnectionId}

/-- After a failed dial. -/
theorem stepped_dialFailure {resolves : Bool}
    (h : Stepped s (.dialFailure (some p) resolves) s') :
    (∀ q, s'.fileGet.buffer q = if q = p then [] else s.fileGet.buffer q) ∧
      ∀ q d x, s'.fileGet.Waiting q d x ↔ s.fileGet.Waiting q d x := by
  cases h with
  | dialFailed _ _ hnone =>
    refine ⟨fun q => ?_, fun _ _ _ => Iff.rfl⟩
    split
    · rename_i hq
      subst hq
      simp [buffer, hnone q rfl]
    · rfl
  | dialDrained _ _ pending hb => exact ⟨fun _ => buffer_clearBuffer, fun _ _ _ => Iff.rfl⟩
  | link _ _ _ hf => cases hf

/-- After a close. -/
theorem stepped_connectionClosed {o i : IterOrder RequestId}
    (h : Stepped s (.connectionClosed p c o i) s') :
    (∀ q, s'.fileGet.buffer q = s.fileGet.buffer q) ∧
      ∀ q d x, s'.fileGet.Waiting q d x ↔ s.fileGet.Waiting q d x ∧ ¬ (q = p ∧ d = c) := by
  cases h with
  | closed l _ _ conn hl hconn hid => exact ⟨fun _ => rfl, fun _ _ _ => holds_closed _⟩
  | link _ _ _ hf => cases hf

end Inversions

section Fails

variable {config : FileGetConfig} {debug : Bool} {tr : Trace System Label} {s s' : System}
  {p : PeerId} {r : RequestId} {a : Label}

/-- A request that is failed was pending. -/
theorem FailsFileGet.pending (h : FailsFileGet s p r a) (hi : InFlight s) :
    s.fileGet.Pending p r := by
  cases h with
  | dialFailed resolves hb => exact Or.inl hb
  | closed c o i hw => exact Or.inr ⟨c, hw⟩
  | ended l e rest hl hp hev hx hne =>
    subst hp
    exact Or.inr ⟨l.id, completes_waiting hi (List.mem_of_find?_eq_some hl) hev hx⟩

/-- A request that is failed is pending no more. -/
theorem FailsFileGet.not_pending (h : FailsFileGet s p r a) (hm : Mirror s) {n : Nat}
    (hp : Placed n s.fileGet) (hi : InFlight s) (hs : Stepped s a s') (q : PeerId) :
    ¬ s'.fileGet.Pending q r := by
  have hpend := h.pending hi
  cases h with
  | dialFailed resolves hb =>
    obtain ⟨hbuf, hwait⟩ := stepped_dialFailure hs
    rintro (⟨request, hmem, hid⟩ | ⟨c, hc⟩)
    · rw [hbuf] at hmem
      split at hmem
      · cases hmem
      · rename_i hne
        exact hne (hp.onePeer (Or.inl ⟨request, hmem, hid⟩) hpend)
    · have hold := (hwait q c r).mp hc
      have hq : q = p := hp.onePeer (Or.inr ⟨c, hold⟩) hpend
      exact hp.notBoth hb (hq ▸ hold)
  | closed c o i hw =>
    obtain ⟨hbuf, hwait⟩ := stepped_connectionClosed hs
    rintro (⟨request, hmem, hid⟩ | ⟨d, hd⟩)
    · rw [hbuf] at hmem
      have hold : s.fileGet.Buffered q r := ⟨request, hmem, hid⟩
      have hq : q = p := hp.onePeer (Or.inl hold) hpend
      exact hp.notBoth (hq ▸ hold) hw
    · obtain ⟨hold, hne⟩ := (hwait q d r).mp hd
      have hq : q = p := hp.onePeer (Or.inr ⟨d, hold⟩) hpend
      exact hne ⟨hq, hp.oneConnection (hq ▸ hold) hw⟩
  | ended l e rest hl hpeer hev hx hne =>
    subst hpeer
    have hw : s.fileGet.Waiting l.peer l.id r :=
      completes_waiting hi (List.mem_of_find?_eq_some hl) hev hx
    rw [stepped_deliverEvent hm hl hev hs]
    rintro (⟨request, hmem, hid⟩ | ⟨d, hd⟩)
    · have hold : s.fileGet.Buffered q r := ⟨request, by simpa [afterEvent] using hmem, hid⟩
      have hq : q = l.peer := hp.onePeer (Or.inl hold) hpend
      exact hp.notBoth (hq ▸ hold) hw
    · obtain ⟨hold, hne'⟩ := (afterEvent_waiting hm.wf e).mp hd
      have hq : q = l.peer := hp.onePeer (Or.inr ⟨d, hold⟩) hpend
      exact hne' ⟨hq, hp.oneConnection (hq ▸ hold) hw, hx⟩

/-- **A request that is failed cannot be answered.** -/
theorem FailsFileGet.not_answerable (h : FailsFileGet s p r a)
    (hrun : (fileGetSystem config debug).Run tr s) (hn : sends tr ≤ UInt64.size)
    (hs : Stepped s a s') : ¬ s'.fileGet.Answerable r := by
  have hm := run_mirror hrun
  have hi := run_inFlight hrun hn
  have hans := run_answered hrun hn
  have hbefore : r ∉ s.fileGet.responses := fun hmem => hans.gone r hmem p (h.pending hi)
  rintro (⟨q, hq⟩ | hr)
  · exact h.not_pending hm (run_placed hrun hn) hi hs q hq
  · cases h with
    | ended l e rest hl hp hev hx hne =>
      rw [stepped_deliverEvent hm hl hev hs, responses_of_append (afterEvent_pendingEvents _)] at hr
      rcases List.mem_append.mp hr with hr | hr
      · exact hbefore hr
      · -- only a response is reported as one
        cases e with
        | response x =>
          obtain rfl : x = r := Option.some.inj hx
          exact hne rfl
        | _ => cases hr
    | dialFailed _ _ | closed _ _ _ _ =>
      cases stepped_responses hs with
      | same _ heq => exact hbefore (heq ▸ hr)

end Fails

/-! ## Commands that wait for them -/

/-- A `GetFile` waits for the response to `r`, and none can come. -/
def EventLoop.Lost (l : EventLoop) (r : RequestId) (k : UInt64) (request : CommandRequest)
    (userName fileName : String) : Prop :=
  l.Awaits r k request userName fileName ∧ ¬ l.swarm.fileGet.Answerable r

section Lost

variable {config : FileGetConfig} {debug : Bool} {fits : String → Bool} {n n' : Node}
  {a : NodeLabel} {r : RequestId} {k : UInt64} {request : CommandRequest}
  {userName fileName : String}

/-- What keeps a command lost. -/
theorem EventLoop.Lost.keep {l l' : EventLoop} (h : l.Lost r k request userName fileName)
    (hentry : l'.pendingFileGets.lookup r = some k)
    (hstored : l'.pendingCommandRequests.lookup k = some request)
    (hans : l'.swarm.fileGet.Answerable r → l.swarm.fileGet.Answerable r) :
    l'.Lost r k request userName fileName :=
  ⟨⟨hentry, hstored, h.1.2.2⟩, fun hr => h.2 (hans hr)⟩

/-- A response can only come for a request that could be answered. -/
theorem answerable_of_progress (hc : Consistent config debug n) {label : Label} {swarm : System}
    (hsend : label.isSend = false) (ha : n.loop.swarm.Allowed label = true)
    (hs : n.loop.swarm.step debug label = .ok swarm) (hr : swarm.fileGet.Answerable r) :
    n.loop.swarm.fileGet.Answerable r := by
  obtain ⟨tr, hrun, hn, -⟩ := hc.follows.run
  have hm := run_mirror hrun
  have hi := run_inFlight hrun (Nat.le_trans hn hc.length_le)
  rcases answerable_before hm hi (step_stepped hm ha hs) hr with hr | ⟨p, hret⟩
  · exact hr
  · obtain ⟨m, w, hlabel, -⟩ := (returned_eq_some hm).mp hret
    dsimp only at hlabel
    rw [hlabel] at hsend
    cases hsend

/-- **A lost command stays lost.** -/
theorem EventLoop.Lost.step (hl : n.loop.Lost r k request userName fileName)
    (hc : Consistent config debug n) (ha : n.Allowed a = true)
    (h : NodeStepped fits debug n a n') : n'.loop.Lost r k request userName fileName := by
  obtain ⟨⟨hr, hk, hcmd⟩, hnot⟩ := hl
  have hl : n.loop.Lost r k request userName fileName := ⟨⟨hr, hk, hcmd⟩, hnot⟩
  have hstored : ∀ x env, a = .command x env →
      (n.loop.store x).pendingCommandRequests.lookup k = some request := by
    rintro x env rfl
    obtain ⟨-, hnew, -⟩ := Node.allowed_command ha
    have hne : k ≠ x.commandRequestId := by
      rintro rfl
      rw [hc.lookup_new hnew] at hk
      cases hk
    exact (lookup_store_ne hne).trans hk
  cases h with
  | failed _ _ _ _ | answered _ _ _ _ | notListed _ _ _ _ _ | dropSwarm _ => exact hl
  | lost what _ => exact (n.close_loop what).symm ▸ hl
  | quiet event env _ _ _ => exact (n.settle_loop event).symm ▸ hl
  | listPeers x env _ | listFiles x env _ _ _ _ => exact hl.keep hr (hstored x env rfl) id
  | getFile x env _ _ peer writer fileGet r' _ _ hs _ =>
    obtain ⟨-, hnew, -⟩ := Node.allowed_command ha
    have hfresh := hc.follows.fresh (hc.length_lt hnew) hs
    have hne : r ≠ r' := by
      rintro rfl
      rw [hr] at hfresh
      cases hfresh
    refine hl.keep ((lookup_insert_ite _ _ _ _).trans ((if_neg hne).trans hr))
      (hstored x env rfl) fun hans => ?_
    -- the request just made is another one
    obtain ⟨tr, hrun, hn, -⟩ := hc.follows.run
    have hm := hc.follows.mirror
    have hi := run_inFlight hrun (Nat.le_trans hn hc.length_le)
    rcases answerable_before hm hi (sendRequest_stepped hm hs) hans with hans | ⟨p, hret⟩
    · exact hans
    · simp only [returned, hs, Option.some.injEq, Prod.mk.injEq] at hret
      exact absurd hret.2.symm hne
  | discovered registrations env =>
    refine hl.keep hr ?_ id
    rcases EventLoop.Correlated.discovered_lookup (l := n.loop) env registrations k with
      ⟨heq, -⟩ | ⟨-, found, hfound, hlist⟩
    · exact heq.trans hk
    · rw [hk] at hfound
      obtain rfl := Option.some.inj hfound
      rw [hcmd] at hlist
      cases hlist
  | listed _ i _ _ k' _ hi _ =>
    -- the two indexes have no command in common
    have hne : k ≠ k' := fun heq => hc.correlated.disjoint hi (heq ▸ hr)
    exact hl.keep hr ((lookup_erase_ite _ _ _).trans ((if_neg hne).trans hk)) id
  | polled env swarm hs _ _ | served env _ _ _ _ _ _ swarm _ _ hs
  | notServed env _ _ _ _ _ _ swarm _ _ hs =>
    exact hl.keep hr hk fun hans => answerable_of_progress hc rfl rfl hs hans
  | fetched env peer r' rest k' _ _ _ swarm hq hs hawait =>
    have hmem : r' ∈ n.loop.swarm.fileGet.responses := by
      simp [FileGet.responses, hq, NetworkBehaviourAction.response?]
    have hne : r ≠ r' := by
      rintro rfl
      exact hnot (Or.inr hmem)
    have hkne : k ≠ k' := by
      rintro rfl
      exact hne (hc.correlated.fileGets.injective hr hawait.1)
    exact hl.keep ((lookup_erase_ite _ _ _).trans ((if_neg hne).trans hr))
      ((lookup_erase_ite _ _ _).trans ((if_neg hkne).trans hk))
      fun hans => answerable_of_progress hc rfl rfl hs hans
  | swarm label swarm hown hallowed hs =>
    exact hl.keep hr hk fun hans =>
      answerable_of_progress hc (isSend_of_isOwn hown) hallowed hs hans

/-- A step that fails the request loses the command. -/
theorem lost_of_fails (hc : Consistent config debug n) {p : PeerId} {label : Label}
    (hawait : n.loop.Awaits r k request userName fileName)
    (hfail : FailsFileGet n.loop.swarm p r label)
    (h : NodeStepped fits debug n (.swarm label) n') :
    n'.loop.Lost r k request userName fileName := by
  cases h with
  | swarm _ swarm _ hallowed hs =>
    obtain ⟨tr, hrun, hn, -⟩ := hc.follows.run
    refine ⟨hawait, ?_⟩
    exact hfail.not_answerable hrun (Nat.le_trans hn hc.length_le)
      (step_stepped hc.follows.mirror hallowed hs)

end Lost

section Runs

variable {config : FileGetConfig} {debug : Bool} {fits : String → Bool}
  {start : Started config debug} {newer older : Trace Node NodeLabel}
  {t : Transition Node NodeLabel} {n : Node} {p : PeerId} {r : RequestId} {k : UInt64}
  {request : CommandRequest} {userName fileName : String} {label : Label}

/-- A command is lost from the step on that fails its request. -/
theorem run_lost (h : (nodeMachine fits start).Run (newer ++ t :: older) n)
    (hawait : t.pre.loop.Awaits r k request userName fileName)
    (hlabel : t.label = .swarm label) (hfail : FailsFileGet t.pre.loop.swarm p r label) :
    n.loop.Lost r k request userName fileName := by
  induction newer generalizing n with
  | nil =>
    obtain ⟨hc, -, hstep⟩ := run_nodeStepped h
    obtain ⟨-, -, -, rfl⟩ := h.tail
    rw [hlabel] at hstep
    exact lost_of_fails hc hawait hfail hstep
  | cons u newer ih =>
    obtain ⟨hc, ha, hstep⟩ := run_nodeStepped h
    obtain ⟨hrun, -, -, rfl⟩ := h.tail
    exact (ih hrun).step hc ha hstep

/-- **A `GetFile` whose request fails is never answered.** From the step
that fails the request on, in every state of every run: the command is
stored, its entry is there, and nothing was sent on its sender. -/
theorem failed_getFile_never_answered
    (h : (nodeMachine fits start).Run (newer ++ t :: older) n)
    (hawait : t.pre.loop.Awaits r k request userName fileName)
    (hlabel : t.label = .swarm label) (hfail : FailsFileGet t.pre.loop.swarm p r label) :
    n.loop.Awaits r k request userName fileName ∧
      ∀ result, (request.responseSender, result) ∉ n.answered := by
  obtain ⟨hlost, -⟩ := run_lost h hawait hlabel hfail
  refine ⟨hlost, fun result hresult => ?_⟩
  exact (run_uncrossed h).unanswered hlost.2.1 (List.mem_map.mpr ⟨_, hresult, rfl⟩)

end Runs

/-- `u` cannot be reached: the dial for the `GetFile` fails. The user goes
on, and the `GetFile` is still there. -/
theorem failed_getFile_never_answered_unreachable : ∃ tr n,
    (nodeMachine (fun _ => true) (Started.fresh ⟨10⟩ true)).Run tr n ∧
    n.received.length = 2 ∧ n.loop.pendingFileGets.lookup (.nth 0) = some 0 ∧
    ∀ result, (SenderId.mk 0, result) ∉ n.answered := by
  obtain ⟨newer, t, older, n, hrun, hlabel, -, hP⟩ := Machine.exists_run_split
    (M := nodeMachine (fun _ => true) (Started.fresh ⟨10⟩ true))
    [.event (.rendezvous (.discovered [⟨⟨"u"⟩, ⟨7⟩, [⟨"a"⟩]⟩])) (.calm 0),
      .command ⟨0, .getFile "u" "f", ⟨0⟩⟩ (.calm 0), .pollFileGet (.calm 0)]
    (.swarm (.dialFailure (some ⟨7⟩) true))
    [.pollFileGet (.calm 0), .command ⟨1, .register "v", ⟨1⟩⟩ (.calm 0)]
    (fun _ t n => t.pre.loop.pendingFileGets.lookup (.nth 0) = some 0 &&
      t.pre.loop.pendingCommandRequests.lookup 0 = some ⟨0, .getFile "u" "f", ⟨0⟩⟩ &&
      (t.pre.loop.swarm.fileGet.buffer ⟨7⟩).any (·.requestId = .nth 0) &&
      n.received.length = 2)
    (by decide) (by decide)
  simp only [Bool.and_eq_true, decide_eq_true_eq, List.any_eq_true] at hP
  obtain ⟨⟨⟨hentry, hstored⟩, request, hmem, hid⟩, hlen⟩ := hP
  have hawait : t.pre.loop.Awaits (.nth 0) 0 ⟨0, .getFile "u" "f", ⟨0⟩⟩ "u" "f" :=
    ⟨hentry, hstored, rfl⟩
  have hfail : FailsFileGet t.pre.loop.swarm ⟨7⟩ (.nth 0) (.dialFailure (some ⟨7⟩) true) :=
    .dialFailed true ⟨request, hmem, hid⟩
  obtain ⟨hlost, hnone⟩ := failed_getFile_never_answered hrun hawait hlabel hfail
  exact ⟨_, n, hrun, hlen, hlost.1, hnone⟩

end FileSharing
