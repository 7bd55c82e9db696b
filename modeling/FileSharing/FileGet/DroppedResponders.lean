/-
FileSharing.FileGet.DroppedResponders — what becomes of an inbound request
whose response sender the application drops.

`InboundFailure::ResponseOmission` is there for this case: the handler
queues `ResponseOmission` when an upgrade returns `false`, and the
behaviour takes the id out and reports it. But `upgrade_inbound` never
returns `false`. It does `response_receiver.await.expect("Sender exists")`,
so a dropped sender makes it panic when it is polled next.

Once the sender is dropped the upgrade is `Abandoned`: it stays where it
is until the swarm takes it away (`TakenAway`), and a poll panics. So the
request ends as it should exactly when the connection closes, or the
substream times out, before the upgrade is polled again.
-/
import FileSharing.FileGet.Directions
import FileSharing.FileGet.InboundUpgrades

namespace FileSharing

open Lib FileGet

/-! ## What should happen -/

/-- No upgrade on connection `c` has the channel. -/
def UpgradeEnded (c : ConnectionId) (ch : ChannelId) (s : System) : Prop :=
  ∀ l ∈ s.links, l.id = c → ∀ sub ∈ l.inbound, sub.channel ≠ ch

/-- The upgrade is polled and panics, and the connection task with it. -/
def UpgradePanics (c : ConnectionId) (ch : ChannelId) (u : Transition System Label) : Prop :=
  (∃ event, u.label = .inbound c ch event) ∧ ∃ l ∈ u.post.links, l.id = c ∧ l.panicked ≠ none

/-- The upgrade is taken away: its connection closes, or the swarm gives
the substream up. -/
def TakenAway (c : ConnectionId) (ch : ChannelId) (a : Label) : Prop :=
  (∃ p o i, a = .connectionClosed p c o i) ∨ ∃ error, a = .inbound c ch (.fails error)

/-- The inbound request a terminal event is about. -/
def FileGetEvent.concluded? : FileGetEvent → Option (PeerId × RequestId)
  | .responseSent p r => some (p, r)
  | .inboundFailure p r _ => some (p, r)
  | _ => none

/-- The upgrade `sub` of connection `l` has ended without a panic by the
end of the steps `newer`; and if it was not taken away, its omission was
reported, nothing else was, and its id is no longer pending. -/
structure OmissionReported (newer : Trace System Label) (s : System) (l : Link)
    (sub : InboundSubstream) : Prop where
  ended : UpgradeEnded l.id sub.channel s
  noPanic : ∀ u ∈ newer, ¬ UpgradePanics l.id sub.channel u
  reported : (∀ u ∈ newer, ¬ TakenAway l.id sub.channel u.label) →
    (∃ u ∈ newer, .inboundFailure l.peer sub.info .responseOmission ∈ reports u) ∧
    (∀ u ∈ newer, ∀ e ∈ reports u, e.concluded? = some (l.peer, sub.info) →
      e = .inboundFailure l.peer sub.info .responseOmission) ∧
    ¬ s.fileGet.Serving l.peer l.id sub.info

/-! ## What does happen -/

/-- An upgrade waits on the channel and its sender was dropped. -/
def Abandoned (c : ConnectionId) (ch : ChannelId) (s : System) : Prop :=
  ∃ l ∈ s.links, l.id = c ∧ ∃ sub ∈ l.inbound,
    sub.channel = ch ∧ sub.phase = .awaitingReader ∧ sub.response = .dropped

theorem Abandoned.not_ended {c : ConnectionId} {ch : ChannelId} {s : System}
    (h : Abandoned c ch s) : ¬ UpgradeEnded c ch s := by
  obtain ⟨l, hl, hid, sub, hsub, hch, -, -⟩ := h
  exact fun hend => hend l hl hid sub hsub hch

section Steps

variable {s s' : System} {a : Label} {c : ConnectionId} {ch : ChannelId}

/-- What ended does not come back: channels are never reused. -/
theorem UpgradeEnded.step (hend : UpgradeEnded c ch s) (hch : ch.key < s.nextChannel)
    (hm : Mirror s) (hallowed : s.Allowed a = true) (h : Stepped s a s') :
    UpgradeEnded c ch s' := by
  intro l' hl' hid x hx heq
  cases stepped_links hm h with
  | touched g hg hlinks =>
    rw [hlinks] at hl'
    obtain ⟨l, hl, rfl⟩ := List.mem_map.mp hl'
    have hid' : l.id = c := (hg l hl).id_eq ▸ hid
    cases (hg l hl).substreamFrom hm hallowed hl hx with
    | old y hy hxy _ | told y hy hxy _ => exact hend l hl hid' y hy (hxy ▸ heq)
    | new _ hnew _ =>
      rw [← heq, hnew] at hch
      exact Nat.lt_irrefl _ hch
  | established k hk hlinks =>
    rw [hlinks] at hl'
    rcases List.mem_append.mp hl' with hl' | hl'
    · exact hend l' hl' hid x hx heq
    · rw [List.mem_singleton.mp hl', hk] at hx
      cases hx
  | closed p d o i _ hlinks =>
    rw [hlinks] at hl'
    exact hend l' (List.mem_of_mem_filter hl') hid x hx heq

/-- The application drops a sender: the upgrade that waits is abandoned. -/
theorem abandoned_of_drop (hw : Wired s) (hallowed : s.Allowed (.dropResponder ch) = true)
    (h : Stepped s (.dropResponder ch) s') {l : Link} (hl : l ∈ s.links)
    {sub : InboundSubstream} (hsub : sub ∈ l.inbound) (hch : sub.channel = ch) :
    Abandoned l.id ch s' := by
  have hresp : sub.channel ∈ s.responders := by simpa [System.Allowed, hch] using hallowed
  have hphase := hw.awaitingReader hl hsub hresp
  cases h with
  | dropResponder _ =>
    refine ⟨_, List.mem_map.mpr ⟨l, hl, rfl⟩, rfl, _, List.mem_map.mpr ⟨sub, hsub, rfl⟩, ?_⟩
    rw [if_pos hch]
    exact ⟨hch, hphase, rfl⟩
  | link _ _ _ hf => cases hf

/-- An upgrade that is taken away has ended. -/
theorem TakenAway.ended (htaken : TakenAway c ch a) (h : Stepped s a s') :
    UpgradeEnded c ch s' := by
  rcases htaken with ⟨p, o, i, rfl⟩ | ⟨error, rfl⟩
  · cases h with
    | closed l _ _ conn _ _ _ =>
      intro k hk hid
      obtain ⟨-, hne⟩ := List.mem_filter.mp hk
      simp [hid] at hne
    | link _ _ _ hf => cases hf
  · cases h with
    | link _ _ _ hf =>
      cases hf
      intro k hk hid x hx
      obtain ⟨l, hl, rfl⟩ := List.mem_map.mp hk
      split at hx
      · unfold Link.inboundEvent at hx
        split at hx
        · rename_i hnone
          simpa using List.find?_eq_none.mp hnone x hx
        · rename_i sub hsome
          have hsub : sub.channel = ch := by simpa using List.find?_some hsome
          obtain ⟨-, hne⟩ := List.mem_filter.mp hx
          simpa [hsub] using hne
      · rename_i hne
        rw [if_neg hne] at hid
        exact absurd hid hne

/-- An event of another upgrade of the connection leaves this one alone. -/
theorem Link.mem_inboundEvent_of_ne {l : Link} {x : InboundSubstream} (hx : x ∈ l.inbound)
    {d : ChannelId} (hne : x.channel ≠ d) (event : InboundEvent) :
    x ∈ (inboundEvent d event l).inbound := by
  unfold inboundEvent
  split
  · exact hx
  · rename_i sub hsome
    have hsub : sub.channel = d := by simpa using List.find?_some hsome
    have hne' : x.channel ≠ sub.channel := hsub.symm ▸ hne
    have hfilter : x ∈ l.inbound.filter fun y => y.channel ≠ sub.channel :=
      List.mem_filter.mpr ⟨hx, by simpa using hne'⟩
    have hresume : ∀ wake, x ∈ (l.resumeInbound sub wake).inbound := by
      intro wake
      unfold resumeInbound
      split
      · split <;> exact List.mem_map.mpr ⟨x, hx, if_neg hne'⟩
      · exact hfilter
      · exact hfilter
      · exact hx
    cases event with
    | received result => exact hresume _
    | pollReader =>
      dsimp only
      split
      · exact hx
      · exact hresume _
      · exact hresume _
    | copied result => exact hresume _
    | fails error => exact hfilter
    | otherProtocol => exact hfilter

/-- A poll of an abandoned upgrade: `expect` panics. -/
theorem Link.inboundEvent_pollReader {l : Link} {sub : InboundSubstream}
    (hfind : l.inbound.find? (fun x => x.channel = ch) = some sub)
    (hphase : sub.phase = .awaitingReader) (hresp : sub.response = .dropped) :
    inboundEvent ch .pollReader l = { l with panicked := some (.expect "Sender exists") } := by
  simp only [inboundEvent, hfind, hresp, resumeInbound, hphase, FileGetInboundProtocol.resume]

/-- The upgrade an allowed event finds is the abandoned one. -/
theorem Abandoned.find (hm : Mirror s) (hw : Wired s) {event : InboundEvent}
    (hallowed : s.Allowed (.inbound c ch event) = true) {l : Link} (hl : l ∈ s.links)
    (hid : l.id = c) {sub : InboundSubstream} (hsub : sub ∈ l.inbound) (hch : sub.channel = ch) :
    l.inbound.find? (fun x => x.channel = ch) = some sub ∧
      System.InboundAllowed sub.phase event = true := by
  obtain ⟨k, hk, hkid, -, x, hx, hxch, hfind, hphase⟩ := inbound_allowed hallowed
  obtain rfl : k = l := List.inj_on_of_nodup_map hm.ids hk hl (hkid.trans hid.symm)
  obtain rfl : x = sub := (hw.tidy k hk).eq_of_channel hx hsub (hxch.trans hch.symm)
  exact ⟨hfind, hphase⟩

/-- An abandoned upgrade stays abandoned on its connection. -/
theorem Abandoned.touched (hm : Mirror s) (hw : Wired s) (hallowed : s.Allowed a = true)
    (htaken : ¬ TakenAway c ch a) {l l' : Link} (hl : l ∈ s.links) (hid : l.id = c)
    {sub : InboundSubstream} (hsub : sub ∈ l.inbound) (hch : sub.channel = ch)
    (hphase : sub.phase = .awaitingReader) (hresp : sub.response = .dropped)
    (h : Touched s a l l') : sub ∈ l'.inbound := by
  cases h with
  | aside l' _ hin _ _ _ => exact hin ▸ hsub
  | opened _ => exact List.mem_append_left _ hsub
  | told d response htells =>
    -- the sender is gone, so it is another channel that is told something
    refine List.mem_map.mpr ⟨sub, hsub, if_neg fun heq => ?_⟩
    have hzero := hw.used l hl sub hsub (by simp [hresp])
    have hpos := List.count_pos_iff.mpr (Wired.mem_responders hallowed htells)
    rw [heq] at hzero
    unfold System.senderCount at hzero
    omega
  | task f hf =>
    cases hf with
    | deliverCommand => exact Link.deliverCommand_inbound l ▸ hsub
    | pollHandler => exact Link.pollHandler_inbound _ _ l ▸ hsub
    | endOutbound => exact Link.endOutbound_inbound _ _ l ▸ hsub
    | inbound _ d event =>
      by_cases hd : sub.channel = d
      · obtain ⟨hfind, hmay⟩ := Abandoned.find hm hw hallowed hl rfl hsub hd
        rw [hphase] at hmay
        cases event with
        | received result | otherProtocol => simp [System.InboundAllowed] at hmay
        | copied result => simp [System.InboundAllowed] at hmay
        | fails error =>
          refine absurd (Or.inr ⟨error, ?_⟩) htaken
          rw [hid, ← hd, hch]
        | pollReader =>
          rw [Link.inboundEvent_pollReader hfind hphase hresp]
          exact hsub
      · exact Link.mem_inboundEvent_of_ne hsub hd event

theorem Abandoned.step (hab : Abandoned c ch s) (hm : Mirror s) (hw : Wired s)
    (hallowed : s.Allowed a = true) (h : Stepped s a s') (htaken : ¬ TakenAway c ch a) :
    Abandoned c ch s' := by
  obtain ⟨l, hl, hid, sub, hsub, hch, hphase, hresp⟩ := hab
  cases stepped_links hm h with
  | touched g hg hlinks =>
    have hmem := touched hm hw hallowed htaken hl hid hsub hch hphase hresp (hg l hl)
    exact ⟨g l, hlinks ▸ List.mem_map_of_mem hl, (hg l hl).id_eq.trans hid, sub, hmem, hch,
      hphase, hresp⟩
  | established k _ hlinks =>
    exact ⟨l, hlinks ▸ List.mem_append_left _ hl, hid, sub, hsub, hch, hphase, hresp⟩
  | closed p d o i ha hlinks =>
    have hne : l.id ≠ d := by
      rintro rfl
      exact htaken (Or.inl ⟨p, o, i, hid ▸ ha⟩)
    refine ⟨l, ?_, hid, sub, hsub, hch, hphase, hresp⟩
    rw [hlinks]
    exact List.mem_filter.mpr ⟨hl, by simpa using hne⟩

theorem Abandoned.poll_panics (hab : Abandoned c ch s) (hm : Mirror s) (hw : Wired s)
    (hallowed : s.Allowed (.inbound c ch .pollReader) = true)
    (h : Stepped s (.inbound c ch .pollReader) s') :
    UpgradePanics c ch ⟨s, .inbound c ch .pollReader, s'⟩ := by
  obtain ⟨l, hl, hid, sub, hsub, hch, hphase, hresp⟩ := hab
  obtain ⟨hfind, -⟩ := Abandoned.find hm hw hallowed hl hid hsub hch
  cases h with
  | link _ _ _ hf =>
    cases hf
    refine ⟨⟨_, rfl⟩, _, List.mem_map.mpr ⟨l, hl, rfl⟩, ?_⟩
    rw [if_pos hid, Link.inboundEvent_pollReader hfind hphase hresp]
    exact ⟨hid, by simp⟩

/-- `expect` is the only panic of the upgrade. -/
theorem FileGetInboundProtocol.resume_panics {u : FileGetInboundProtocol} {phase : InboundPhase}
    {wake : InboundWake} {p : Panic} (h : u.resume phase wake = .panics p) :
    wake = .reader none := by
  unfold resume at h
  split at h <;> first | rfl | cases h

theorem Link.inboundEvent_panicked (l : Link) {event : InboundEvent} (hne : event ≠ .pollReader) :
    (inboundEvent ch event l).panicked = l.panicked := by
  have hresume : ∀ sub wake, wake ≠ .reader none →
      (l.resumeInbound sub wake).panicked = l.panicked := by
    intro sub wake hwake
    unfold resumeInbound
    split
    · split <;> rfl
    · rfl
    · rfl
    · rename_i hpanics
      exact absurd (FileGetInboundProtocol.resume_panics hpanics) hwake
  unfold inboundEvent
  split
  · rfl
  · cases event with
    | received result => exact hresume _ _ (by simp)
    | pollReader => exact absurd rfl hne
    | copied result => exact hresume _ _ (by simp)
    | fails error => rfl
    | otherProtocol => rfl

/-- An upgrade panics in no other way than when it is polled for the
reader. -/
theorem UpgradePanics.polled (hp : UpgradePanics c ch ⟨s, a, s'⟩) (hm : Mirror s)
    (hallowed : s.Allowed a = true) (h : Stepped s a s') : a = .inbound c ch .pollReader := by
  obtain ⟨⟨event, ha⟩, k, hk, hid, hpanicked⟩ := hp
  dsimp only at ha hk
  subst ha
  by_contra hne
  have hevent : event ≠ .pollReader := fun heq => hne (heq ▸ rfl)
  obtain ⟨l, hl, hlid, hnone, -⟩ := inbound_allowed hallowed
  cases h with
  | link _ _ _ hf =>
    cases hf
    obtain ⟨l', hl', rfl⟩ := List.mem_map.mp hk
    split at hid
    · rename_i heq
      obtain rfl : l' = l := List.inj_on_of_nodup_map hm.ids hl' hl (heq.trans hlid.symm)
      rw [if_pos heq, Link.inboundEvent_panicked l' hevent] at hpanicked
      exact hpanicked hnone
    · rename_i hother
      exact hother hid

end Steps

/-! ## Runs -/

section Runs

variable {config : FileGetConfig} {debug : Bool} {newer older : Trace System Label}
  {t : Transition System Label} {s : System} {c : ConnectionId} {ch : ChannelId}

/-- **An abandoned upgrade waits until it is taken away.** -/
theorem run_abandoned (h : (fileGetSystem config debug).Run (newer ++ t :: older) s)
    (hab : Abandoned c ch t.post) :
    (Abandoned c ch s ∧ ∀ u ∈ newer, ¬ TakenAway c ch u.label) ∨
    (UpgradeEnded c ch s ∧ ch.key < s.nextChannel ∧ ∃ u ∈ newer, TakenAway c ch u.label) := by
  induction newer generalizing s with
  | nil =>
    obtain ⟨-, -, -, rfl⟩ := h.tail
    exact Or.inl ⟨hab, by simp⟩
  | cons u newer ih =>
    obtain ⟨hrun, hallowed, -, rfl⟩ := h.tail
    obtain ⟨hm, hstep⟩ := run_stepped h
    have hw := run_wired hrun
    have hnext := stepped_nextChannel hstep
    rcases ih hrun with ⟨hwait, hnone⟩ | ⟨hend, hkey, v, hv, hgone⟩
    · by_cases htaken : TakenAway c ch u.label
      · obtain ⟨l, hl, -, sub, hsub, hch, -⟩ := hwait
        have hkey := hw.known l hl sub hsub
        rw [hch] at hkey
        exact Or.inr ⟨htaken.ended hstep, by omega, u, List.mem_cons_self, htaken⟩
      · refine Or.inl ⟨hwait.step hm hw hallowed hstep htaken, fun v hv => ?_⟩
        rcases List.mem_cons.mp hv with rfl | hv
        · exact htaken
        · exact hnone v hv
    · exact Or.inr ⟨hend.step hkey hm hallowed hstep, by omega, v, List.mem_cons_of_mem _ hv, hgone⟩

/-- The upgrade is taken away before anybody polls it for the reader. -/
def TakenUnpolled (c : ConnectionId) (ch : ChannelId) (newer : Trace System Label) : Prop :=
  (∃ u ∈ newer, TakenAway c ch u.label) ∧ ∀ u ∈ newer, u.label ≠ .inbound c ch .pollReader

/-- After a responder was dropped, one upgrade that waited for it. -/
theorem omissionReported_iff (h : (fileGetSystem config debug).Run (newer ++ t :: older) s)
    (hdrop : t.label = .dropResponder ch) {l : Link} (hl : l ∈ t.pre.links)
    {sub : InboundSubstream} (hsub : sub ∈ l.inbound) (hch : sub.channel = ch) :
    OmissionReported newer s l sub ↔ TakenUnpolled l.id ch newer := by
  obtain ⟨hrun, hallowed, hok⟩ := h.of_append
  have hm := run_mirror hrun
  have hab : Abandoned l.id ch t.post :=
    abandoned_of_drop (run_wired hrun) (hdrop ▸ hallowed)
      (hdrop ▸ step_stepped hm hallowed hok) hl hsub hch
  subst hch
  constructor
  · intro hrep
    constructor
    · rcases run_abandoned h hab with ⟨hwait, -⟩ | ⟨-, -, htaken⟩
      · exact absurd hrep.ended hwait.not_ended
      · exact htaken
    · -- a poll finds the upgrade abandoned, or does not find it at all
      intro u hu hpoll
      obtain ⟨after, before, rfl⟩ := List.append_of_mem hu
      rw [List.append_assoc, List.cons_append] at h
      obtain ⟨hrun', hallowed', hok'⟩ := h.of_append
      have hm' := run_mirror hrun'
      have hstep := step_stepped hm' hallowed' hok'
      rw [hpoll] at hallowed' hstep
      rcases run_abandoned hrun' hab with ⟨hwait, -⟩ | ⟨hend, -, -⟩
      · have hp := hwait.poll_panics hm' (run_wired hrun') hallowed' hstep
        exact hrep.noPanic u hu ⟨⟨_, hpoll⟩, hp.2⟩
      · obtain ⟨k, hk, hkid, -, x, hx, hxch, -⟩ := inbound_allowed hallowed'
        exact hend k hk hkid x hx hxch
  · rintro ⟨⟨v, hv, htaken⟩, hunpolled⟩
    refine ⟨?_, fun u hu hp => ?_, fun hnone => absurd htaken (hnone v hv)⟩
    · rcases run_abandoned h hab with ⟨-, hnone⟩ | ⟨hend, -, -⟩
      · exact absurd htaken (hnone v hv)
      · exact hend
    · obtain ⟨after, before, rfl⟩ := List.append_of_mem hu
      rw [List.append_assoc, List.cons_append] at h
      obtain ⟨hrun', hallowed', hok'⟩ := h.of_append
      have hm' := run_mirror hrun'
      exact hunpolled u hu (hp.polled hm' hallowed' (step_stepped hm' hallowed' hok'))

/-- **A dropped responder is handled exactly when the upgrade that waits
for it is taken away before it is polled.** For every run and every drop in
it: the upgrade ends without a panic, its omission reported unless it was
taken away, if and only if the connection closes or the substream is given
up after the drop, and the upgrade is not polled in between. -/
theorem dropped_responder_reported_iff
    (h : (fileGetSystem config debug).Run (newer ++ t :: older) s)
    (hdrop : t.label = .dropResponder ch) :
    (∀ l ∈ t.pre.links, ∀ sub ∈ l.inbound, sub.channel = ch → OmissionReported newer s l sub) ↔
      ∀ l ∈ t.pre.links, ∀ sub ∈ l.inbound, sub.channel = ch → TakenUnpolled l.id ch newer :=
  ⟨fun hrep l hl sub hsub hch =>
      (omissionReported_iff h hdrop hl hsub hch).mp (hrep l hl sub hsub hch),
    fun htaken l hl sub hsub hch =>
      (omissionReported_iff h hdrop hl hsub hch).mpr (htaken l hl sub hsub hch)⟩

end Runs

/-- The remote asks for a file, the application drops the responder, and
the substream times out. -/
theorem dropped_responder_times_out : ∃ newer t older s,
    (fileGetSystem ⟨10⟩ true).Run (newer ++ t :: older) s ∧ t.label = .dropResponder ⟨0⟩ ∧
    ∃ l ∈ t.pre.links, ∃ sub ∈ l.inbound, sub.channel = ⟨0⟩ ∧ OmissionReported newer s l sub := by
  obtain ⟨newer, t, older, s, hrun, hdrop, hlabels, hP⟩ :=
    Machine.exists_run_split (M := fileGetSystem ⟨10⟩ true)
    [.connectionEstablished ⟨7⟩ ⟨1⟩ (.dialer ⟨"/ip4/10.0.0.2"⟩) false,
      .openInbound ⟨1⟩, .inbound ⟨1⟩ ⟨0⟩ (.received (.ok ⟨"a"⟩)), .pollHandler ⟨1⟩ 0 0,
      .deliverEvent ⟨1⟩, .pollBehaviour]
    (.dropResponder ⟨0⟩) [.inbound ⟨1⟩ ⟨0⟩ (.fails .timeout)]
    (fun newer t _ => decide (newer ≠ [] ∧
      (∃ l ∈ t.pre.links, ∃ sub ∈ l.inbound, sub.channel = ⟨0⟩) ∧
      ∀ l ∈ t.pre.links, l.id = ⟨1⟩)) (by decide) (by decide)
  obtain ⟨hne, ⟨l, hl, sub, hsub, hch⟩, hid⟩ := of_decide_eq_true hP
  have htaken : ∀ k ∈ t.pre.links, TakenUnpolled k.id ⟨0⟩ newer := by
    intro k hk
    rw [hid k hk]
    have hmem : ∀ u ∈ newer, u.label = .inbound ⟨1⟩ ⟨0⟩ (.fails .timeout) := fun u hu => by
      have := List.mem_map_of_mem (f := (·.label)) hu
      rw [hlabels] at this
      simpa using this
    obtain ⟨u, hu⟩ := List.exists_mem_of_ne_nil newer hne
    exact ⟨⟨u, hu, Or.inr ⟨_, hmem u hu⟩⟩, fun v hv => by simp [hmem v hv]⟩
  exact ⟨newer, t, older, s, hrun, hdrop, l, hl, sub, hsub, hch,
    (dropped_responder_reported_iff hrun hdrop).mpr (fun k hk _ _ _ => htaken k hk) l hl sub hsub
      hch⟩

/-- The responder is dropped and the upgrade polled: the connection task
panics, nothing is reported and the id stays pending. -/
theorem dropped_responder_panics : ∃ newer t older s,
    (fileGetSystem ⟨10⟩ true).Run (newer ++ t :: older) s ∧ t.label = .dropResponder ⟨0⟩ ∧
    ∃ l ∈ t.pre.links, ∃ sub ∈ l.inbound, sub.channel = ⟨0⟩ ∧
      (∀ u ∈ newer, ¬ TakenAway l.id ⟨0⟩ u.label) ∧ (∃ u ∈ newer, UpgradePanics l.id ⟨0⟩ u) ∧
      (∀ u ∈ newer, reports u = []) ∧ s.fileGet.Serving l.peer l.id sub.info ∧
      ¬ OmissionReported newer s l sub := by
  obtain ⟨newer, t, older, s, hrun, hdrop, hlabels, hP⟩ :=
    Machine.exists_run_split (M := fileGetSystem ⟨10⟩ true)
    [.connectionEstablished ⟨7⟩ ⟨1⟩ (.dialer ⟨"/ip4/10.0.0.2"⟩) false,
      .openInbound ⟨1⟩, .inbound ⟨1⟩ ⟨0⟩ (.received (.ok ⟨"a"⟩)), .pollHandler ⟨1⟩ 0 0,
      .deliverEvent ⟨1⟩, .pollBehaviour]
    (.dropResponder ⟨0⟩) [.inbound ⟨1⟩ ⟨0⟩ .pollReader]
    (fun newer t s => decide (newer ≠ [] ∧ (∃ l ∈ t.pre.links, ∃ sub ∈ l.inbound,
        sub.channel = ⟨0⟩ ∧ l.id = ⟨1⟩ ∧ ∃ conn ∈ s.fileGet.connections l.peer,
          conn.id = l.id ∧ sub.info ∈ conn.pendingOutboundResponses) ∧
      (∀ u ∈ newer, reports u = []) ∧
      ∀ u ∈ newer, ∃ l ∈ u.post.links, l.id = ⟨1⟩ ∧ l.panicked ≠ none)) (by decide) (by decide)
  obtain ⟨hne, ⟨l, hl, sub, hsub, hch, hid, hserving⟩, hquiet, hpanicked⟩ := of_decide_eq_true hP
  have hmem : ∀ u ∈ newer, u.label = .inbound ⟨1⟩ ⟨0⟩ .pollReader := fun u hu => by
    have := List.mem_map_of_mem (f := (·.label)) hu
    rw [hlabels] at this
    simpa using this
  obtain ⟨u, hu⟩ := List.exists_mem_of_ne_nil newer hne
  have hpanics : UpgradePanics l.id ⟨0⟩ u := by
    rw [hid]
    exact ⟨⟨_, hmem u hu⟩, hpanicked u hu⟩
  refine ⟨newer, t, older, s, hrun, hdrop, l, hl, sub, hsub, hch, fun v hv => ?_,
    ⟨u, hu, hpanics⟩, hquiet, hserving, fun hrep => hrep.noPanic u hu (hch ▸ hpanics)⟩
  rw [hmem v hv]
  simp [TakenAway]

end FileSharing
