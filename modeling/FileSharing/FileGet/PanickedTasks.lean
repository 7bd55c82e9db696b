/-
FileSharing.FileGet.PanickedTasks — why a connection task panics.

The one panic in the code a connection task runs is the `expect` in
`upgrade_inbound`, and it fails when the sender of the response channel was
dropped. So a task that has panicked still holds an upgrade whose sender is
gone, and the record has the step in which the application dropped it
(`Link.Blamed`).
-/
import FileSharing.FileGet.DroppedResponders

namespace FileSharing

open Lib FileGet

/-- What the record says about the senders that are gone, and about a
panic. -/
structure Link.Blamed (tr : Trace System Label) (l : Link) : Prop where
  dropped : ∀ sub ∈ l.inbound, sub.response = .dropped →
    ∃ u ∈ tr, u.label = .dropResponder sub.channel
  panicked : l.panicked ≠ none → ∃ sub ∈ l.inbound, sub.response = .dropped

/-- An upgrade that makes its task panic is one that is polled when its
sender is gone, and stays where it is. -/
theorem Link.inboundEvent_panics {l : Link} {ch : ChannelId} {event : InboundEvent}
    (hrun : l.panicked = none) (h : (l.inboundEvent ch event).panicked ≠ none) :
    event = .pollReader ∧ (l.inboundEvent ch event).inbound = l.inbound ∧
      ∃ sub ∈ l.inbound, sub.channel = ch ∧ sub.response = .dropped := by
  by_cases hpoll : event = .pollReader
  · refine ⟨hpoll, ?_⟩
    subst hpoll
    unfold inboundEvent at h ⊢
    split at h
    · exact absurd hrun h
    · rename_i sub hfind
      have hsub := List.mem_of_find?_eq_some hfind
      have hch : sub.channel = ch := by simpa using List.find?_some hfind
      dsimp only at h ⊢
      cases hresponse : sub.response with
      | empty =>
        simp only [hresponse] at h
        exact absurd hrun h
      | sent reader =>
        simp only [hresponse] at h
        unfold resumeInbound at h
        split at h
        · split at h <;> exact absurd hrun h
        · exact absurd hrun h
        · exact absurd hrun h
        · rename_i hpanics
          cases FileGetInboundProtocol.resume_panics hpanics
      | dropped =>
        simp only [hresponse] at h ⊢
        unfold resumeInbound at h ⊢
        split at h
        · split at h <;> exact absurd hrun h
        · exact absurd hrun h
        · exact absurd hrun h
        · exact ⟨rfl, sub, hsub, hch, hresponse⟩
  · rw [l.inboundEvent_panicked hpoll] at h
    exact absurd hrun h

theorem Link.deliverCommand_panicked (l : Link) : l.deliverCommand.panicked = l.panicked := by
  unfold deliverCommand
  split <;> rfl

theorem Link.pollHandler_panicked (l : Link) (now : Instant) (pick : Nat) :
    (l.pollHandler now pick).panicked = l.panicked := by
  unfold pollHandler
  split <;> rfl

theorem Link.endOutbound_panicked (l : Link) (i : Nat)
    (result : Except ConnectionHandlerUpgrErr Unit) :
    (l.endOutbound i result).panicked = l.panicked := by
  unfold endOutbound
  split <;> rfl

section Steps

variable {s s' : System} {a : Label} {l l' : Link} {tr : Trace System Label}

/-- A sender that is gone is not given back. -/
theorem Link.Blamed.told (hb : l.Blamed tr) (hw : Wired s) (hallowed : s.Allowed a = true)
    (hl : l ∈ s.links) {ch : ChannelId} {response : ResponseChannel}
    (htells : a.tells? = some (ch, response)) (h : l.panicked ≠ none) :
    ∃ sub ∈ (Link.setResponse ch response l).inbound, sub.response = .dropped := by
  obtain ⟨sub, hsub, hdropped⟩ := hb.panicked h
  refine ⟨sub, List.mem_map.mpr ⟨sub, hsub, if_neg ?_⟩, hdropped⟩
  intro heq
  have hzero := hw.used l hl sub hsub (by simp [hdropped])
  have hpos := List.count_pos_iff.mpr (Wired.mem_responders hallowed htells)
  rw [heq] at hzero
  unfold System.senderCount at hzero
  omega

/-- What a step does to a task that may have panicked. -/
theorem LinkStepped.panicked (h : LinkStepped s a l l') (hb : l.Blamed tr) (hm : Mirror s)
    (hw : Wired s) (hallowed : s.Allowed a = true) (hl : l ∈ s.links)
    (hpanicked : l'.panicked ≠ none) : ∃ sub ∈ l'.inbound, sub.response = .dropped := by
  cases h with
  | aside _ _ | readdressed _ _ _ | commanded _ _ | delivered _ _ _ _ => exact hb.panicked hpanicked
  | opened _ =>
    obtain ⟨sub, hsub, hdropped⟩ := hb.panicked hpanicked
    exact ⟨sub, List.mem_append_left _ hsub, hdropped⟩
  | told ch response htells => exact hb.told hw hallowed hl htells hpanicked
  | task f hf =>
    cases hf with
    | deliverCommand =>
      rw [l.deliverCommand_panicked] at hpanicked
      rw [Link.deliverCommand_inbound]
      exact hb.panicked hpanicked
    | pollHandler _ now pick =>
      rw [l.pollHandler_panicked] at hpanicked
      rw [Link.pollHandler_inbound]
      exact hb.panicked hpanicked
    | endOutbound _ i result =>
      rw [l.endOutbound_panicked] at hpanicked
      rw [Link.endOutbound_inbound]
      exact hb.panicked hpanicked
    | inbound _ ch event =>
      obtain ⟨k, hk, hid, hrun, -⟩ := inbound_allowed hallowed
      obtain rfl : k = l := List.inj_on_of_nodup_map hm.ids hk hl hid
      obtain ⟨-, hinbound, sub, hsub, -, hdropped⟩ := Link.inboundEvent_panics hrun hpanicked
      exact ⟨sub, hinbound ▸ hsub, hdropped⟩

/-- **A step adds its own drop to the record, and no other cause.** -/
theorem blamed_step (hb : ∀ l ∈ s.links, l.Blamed tr) (hm : Mirror s) (hw : Wired s)
    (hallowed : s.Allowed a = true) (h : Stepped s a s') :
    ∀ l ∈ s'.links, l.Blamed (⟨s, a, s'⟩ :: tr) := by
  intro l' hl'
  cases stepped_linksStepped hm h with
  | each g hg hlinks =>
    rw [hlinks] at hl'
    obtain ⟨l, hl, rfl⟩ := List.mem_map.mp hl'
    refine ⟨?_, (hg l hl).panicked (hb l hl) hm hw hallowed hl⟩
    intro sub hsub hdropped
    cases (hg l hl).touched.substreamFrom hm hallowed hl hsub with
    | old y hy hch hresponse =>
      obtain ⟨u, hu, hlabel⟩ := (hb l hl).dropped y hy (hresponse ▸ hdropped)
      exact ⟨u, List.mem_cons_of_mem _ hu, hch ▸ hlabel⟩
    | new _ _ hresponse =>
      rw [hdropped] at hresponse
      cases hresponse
    | told y _ _ htells =>
      refine ⟨_, List.mem_cons_self, ?_⟩
      rw [hdropped] at htells
      cases a with
      | dropResponder ch =>
        obtain ⟨rfl, -⟩ := Prod.mk.inj (Option.some.inj htells)
        rfl
      | _ => cases htells
  | established p c ep resolves timeout _ hlinks =>
    rw [hlinks] at hl'
    rcases List.mem_append.mp hl' with hold | hnew
    · refine ⟨?_, (hb l' hold).panicked⟩
      intro sub hsub hdropped
      obtain ⟨u, hu, hlabel⟩ := (hb l' hold).dropped sub hsub hdropped
      exact ⟨u, List.mem_cons_of_mem _ hu, hlabel⟩
    · rw [List.mem_singleton.mp hnew]
      refine ⟨?_, fun hpanicked => absurd rfl hpanicked⟩
      intro sub hsub
      cases hsub
  | closed p c o i _ hlinks =>
    rw [hlinks] at hl'
    have hold := List.mem_of_mem_filter hl'
    refine ⟨?_, (hb l' hold).panicked⟩
    intro sub hsub hdropped
    obtain ⟨u, hu, hlabel⟩ := (hb l' hold).dropped sub hsub hdropped
    exact ⟨u, List.mem_cons_of_mem _ hu, hlabel⟩

end Steps

section Runs

variable {config : FileGetConfig} {debug : Bool} {tr : Trace System Label} {s : System}

theorem run_blamed (h : (fileGetSystem config debug).Run tr s) : ∀ l ∈ s.links, l.Blamed tr := by
  induction tr generalizing s with
  | nil =>
    cases h
    intro l hl
    cases hl
  | cons t tr ih =>
    obtain ⟨hrun, hallowed, hok, rfl⟩ := h.tail
    have hm := run_mirror hrun
    exact blamed_step (ih hrun) hm (run_wired hrun) hallowed (step_stepped hm hallowed hok)

/-- A task that has panicked lost the sender of one of its upgrades. -/
theorem drop_of_panicked (h : (fileGetSystem config debug).Run tr s) {l : Link} (hl : l ∈ s.links)
    (hpanicked : l.panicked ≠ none) : ∃ sub ∈ l.inbound, sub.response = .dropped ∧
      ∃ u ∈ tr, u.label = .dropResponder sub.channel := by
  have hb := run_blamed h l hl
  obtain ⟨sub, hsub, hdropped⟩ := hb.panicked hpanicked
  exact ⟨sub, hsub, hdropped, hb.dropped sub hsub hdropped⟩

end Runs

end FileSharing
