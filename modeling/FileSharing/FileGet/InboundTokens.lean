/-
FileSharing.FileGet.InboundTokens — inbound ids as tokens.

`listen_protocol` issues an id with every substream, and never again while
at most `2 ^ 64` were drawn (`drewId_new`). What holds the token differs:
the future that may give the request (`futureAccounting`), the upgrade and
then the event that ends it (`upgradeAccounting`), and the whole way from
the future to the set of the connection (`receiptAccounting`). In each of
them a token that was let go does not come back.
-/
import FileSharing.FileGet.EventOrder

namespace FileSharing

open Lib FileGet

/-! ## What the handlers emit -/

/-- The event a handler emits at a step. -/
def emits (t : Transition System Label) : Option FileGetHandlerEvent :=
  match t.label with
  | .pollHandler c now pick =>
    match (t.pre.link? c).bind fun l => (l.handler.poll now pick).2 with
    | some (.custom e) => some e
    | _ => none
  | _ => none

/-- The id of a `Request` a handler emits. -/
def emitsRequest (t : Transition System Label) : Option RequestId := (emits t).bind (·.announces)

/-- The id in a `ResponseSent`, `ResponseOmission`, `InboundTimeout` or
`InboundUnsupportedProtocols` a handler emits. -/
def emitsEnd (t : Transition System Label) : Option RequestId := (emits t).bind (·.concludes)

/-- How an event is emitted: it was the oldest in the queue, or a future
gave the request. -/
inductive Emitted (e : FileGetHandlerEvent) (l l' : Link) : Prop where
  | queued : l.handler.pendingEvents = e :: l'.handler.pendingEvents →
      l'.handler.inbound = l.handler.inbound → Emitted e l l'
  | request (ch : ChannelId) (r : RequestId) (m : FileGetMessage) : e = .request r m ch →
      ⟨ch, .received r m⟩ ∈ l.handler.inbound →
      l'.handler.inbound = l.handler.inbound.erase ⟨ch, .received r m⟩ → Emitted e l l'

theorem Link.emitted_pollHandler {e : FileGetHandlerEvent} {l : Link} {now : Instant} {pick : Nat}
    (h : (l.handler.poll now pick).2 = some (.custom e)) :
    Emitted e l (Link.pollHandler now pick l) := by
  have hp := l.handler.polled now pick
  unfold Link.pollHandler
  generalize l.handler.poll now pick = result at hp h
  cases hp with
  | close error _ => cases h
  | event e' rest hev =>
    cases h
    exact .queued hev rfl
  | outbound request rest _ => cases h
  | request ch r m hmem =>
    cases h
    exact .request ch r m rfl hmem rfl
  | pending inbound keepAlive _ _ _ _ _ => cases h

/-- **Inversion**: an event is emitted on one connection, and the others
stay as they are. -/
theorem emits_emitted {config : FileGetConfig} {debug : Bool} {t : Transition System Label}
    (hm : Mirror t.pre) (h : (fileGetSystem config debug).step t.pre t.label = .ok t.post)
    {e : FileGetHandlerEvent} (he : emits t = some e) :
    ∃ l ∈ t.pre.links, ∃ l', Emitted e l l' ∧ l'.id = l.id ∧ l'.inbound = l.inbound ∧
      ∀ k ∈ t.post.links, k = l' ∨ k ∈ t.pre.links ∧ k.id ≠ l.id := by
  obtain ⟨s, a, s'⟩ := t
  dsimp only at hm h
  cases a with
  | pollHandler c now pick =>
    obtain rfl := Except.ok.inj h
    cases hlink : s.link? c with
    | none => simp [emits, hlink] at he
    | some l =>
      obtain ⟨hl, rfl⟩ := Mirror.link?_of_some hlink
      have hpoll : (l.handler.poll now pick).2 = some (.custom e) := by
        simp only [emits, hlink, Option.bind_some] at he
        split at he
        · rename_i e' heq
          cases he
          exact heq
        · cases he
      refine ⟨l, hl, Link.pollHandler now pick l, Link.emitted_pollHandler hpoll,
        (Link.keeps_pollHandler now pick l).1, Link.pollHandler_inbound now pick l, fun k hk => ?_⟩
      obtain ⟨k₀, hk₀, rfl⟩ := List.mem_map.mp hk
      split
      · rename_i hid
        rw [List.inj_on_of_nodup_map hm.ids hk₀ hl hid]
        exact Or.inl rfl
      · rename_i hne
        exact Or.inr ⟨hk₀, hne⟩
  | _ => cases he

/-! ## Ids as tokens -/

/-- The id of the inbound request a step draws. -/
def drewId (t : Transition System Label) : Option RequestId := (drew t).map (·.2)

section Tokens

variable {config : FileGetConfig} {debug : Bool} {t : Transition System Label}
  {tr : Trace System Label} {s : System} {r : RequestId}

/-- The n-th draw gives the n-th id. -/
theorem drewId_iff (h : (fileGetSystem config debug).Run (t :: tr) s) :
    drewId t = some r ↔ ∃ c, t.label.opensOn = [c] ∧ r = .nth (opens tr).length := by
  obtain ⟨hrun, hallowed, -, -⟩ := h.tail
  have hn := run_numbered hrun
  obtain ⟨s, a, s'⟩ := t
  cases a with
  | openInbound c =>
    have hlink : ∃ l, s.link? c = some l := by
      cases hl : s.link? c with
      | none =>
        replace hallowed : s.Allowed (.openInbound c) = true := hallowed
        simp [System.Allowed, System.liveLink, hl] at hallowed
      | some l => exact ⟨l, rfl⟩
    obtain ⟨l, hl⟩ := hlink
    have hid : drewId ⟨s, .openInbound c, s'⟩ = some (.nth (opens tr).length) := by
      simp only [drewId, drew, hl, Option.map_some]
      exact congrArg some (hn.generator.trans (congrArg _ hn.next))
    rw [hid]
    constructor
    · intro heq
      exact ⟨c, rfl, (Option.some.inj heq).symm⟩
    · rintro ⟨-, -, rfl⟩
      rfl
  | _ => simp [drewId, drew, Label.opensOn]

/-- The ids drawn in a run are those of its connections. -/
theorem drewId_drawnOn (h : (fileGetSystem config debug).Run tr s) :
    (∃ u ∈ tr, drewId u = some r) ↔ ∃ c, DrawnOn (opens tr) r c := by
  induction tr generalizing s with
  | nil => simp [DrawnOn, opens]
  | cons t tr ih =>
    obtain ⟨hrun, -, -, -⟩ := h.tail
    constructor
    · rintro ⟨u, hu, hr⟩
      rcases List.mem_cons.mp hu with rfl | hu
      · obtain ⟨c, hc, rfl⟩ := (drewId_iff h).mp hr
        exact ⟨c, _, rfl, by simp [opens, hc]⟩
      · obtain ⟨c, k, hk, hon⟩ := (ih hrun).mp ⟨u, hu, hr⟩
        exact ⟨c, k, hk, opens_cons hon⟩
    · rintro ⟨c, k, rfl, hon⟩
      by_cases hlt : k < (opens tr).length
      · rw [opens, List.getElem?_append_left hlt] at hon
        obtain ⟨u, hu, hr⟩ := (ih hrun).mpr ⟨c, k, rfl, hon⟩
        exact ⟨u, List.mem_cons_of_mem _ hu, hr⟩
      · -- the last one
        rw [opens, List.getElem?_append_right (Nat.le_of_not_lt hlt)] at hon
        have hlast : ∃ d, t.label.opensOn = [d] := by
          cases hlabel : t.label with
          | openInbound d => exact ⟨d, rfl⟩
          | _ => simp [hlabel, Label.opensOn] at hon
        obtain ⟨d, hd⟩ := hlast
        rw [hd] at hon
        have hzero := (List.getElem?_eq_some_iff.mp hon).1
        rw [List.length_singleton] at hzero
        have hk : k = (opens tr).length := by omega
        exact ⟨t, List.mem_cons_self, (drewId_iff h).mpr ⟨d, hd, by rw [hk]⟩⟩

/-- An id is drawn once. -/
theorem drewId_new (h : (fileGetSystem config debug).Run (t :: tr) s)
    (hlen : (opens (t :: tr)).length ≤ UInt64.size) (hr : drewId t = some r) :
    ∀ u ∈ tr, drewId u ≠ some r := by
  intro u hu hur
  obtain ⟨c, hc, rfl⟩ := (drewId_iff h).mp hr
  obtain ⟨d, k, hk, hon⟩ := (drewId_drawnOn h.tail.1).mp ⟨u, hu, hur⟩
  have hlast : (opens (t :: tr))[(opens tr).length]? = some c := by simp [opens, hc]
  have heq := number_inj hlen hlast (opens_cons hon) hk
  have hlt := (List.getElem?_eq_some_iff.mp hon).1
  omega

/-- The token disciplines of inbound ids differ in what it is to hold one. -/
def inboundAccounting (config : FileGetConfig) (debug : Bool)
    (held : System → RequestId → Prop) (init_held : ∀ r, ¬ held (.init config) r)
    (held_step : ∀ {t tr s}, (fileGetSystem config debug).Run (t :: tr) s →
      ∀ r, held t.post r → held t.pre r ∨ drewId t = some r)
    (issued_held : ∀ {t tr s}, (fileGetSystem config debug).Run (t :: tr) s →
      ∀ r, drewId t = some r → held t.post r) :
    Accounting (fileGetSystem config debug) RequestId where
  issued := drewId
  held := held
  within tr := (opens tr).length ≤ UInt64.size
  within_tail := fun {t tr} hlen => Nat.le_trans (opens_length_le t tr) hlen
  init_held := init_held
  held_step := fun h _ => held_step h
  issued_held := fun h _ => issued_held h
  issued_new := fun h hlen _ => drewId_new h hlen

end Tokens

/-! ## The future of a request -/

/-- A future may still give the request. -/
def System.Expects (s : System) (r : RequestId) : Prop :=
  ∃ l ∈ s.links, ∃ f ∈ l.handler.inbound, f.state ≠ .canceled ∧ RequestId.nth f.channel.key = r

/-- The upgrade of the request runs, or the handler has yet to emit the
event that ended it. -/
def System.Upgrading (s : System) (r : RequestId) : Prop :=
  ∃ l ∈ s.links, (∃ sub ∈ l.inbound, sub.info = r) ∨
    ∃ e ∈ l.handler.pendingEvents, e.concludes = some r

/-- The request may still reach the set of its connection, or is in it. -/
def System.Receives (s : System) (r : RequestId) : Prop :=
  s.Expects r ∨ (∃ l ∈ s.links, ∃ e ∈ l.events, e.announces = some r) ∨
    ∃ p c, s.fileGet.Serving p c r

section Held

variable {config : FileGetConfig} {debug : Bool} {t : Transition System Label}
  {tr : Trace System Label} {s : System} {r : RequestId}

/-- Futures come from `listen_protocol`. -/
theorem expects_before (h : (fileGetSystem config debug).Run (t :: tr) s)
    (hr : t.post.Expects r) : t.pre.Expects r ∨ drewId t = some r := by
  obtain ⟨hrun, hallowed, -, -⟩ := h.tail
  obtain ⟨hm, hstep⟩ := run_stepped h
  have hw := run_wired hrun
  obtain ⟨l', hl', f, hf, hlive, hkey⟩ := hr
  cases stepped_linkFrom hm hallowed hstep hl' with
  | new _ hfut _ _ => simp [hfut] at hf
  | old l hl _ _ hmoved =>
    cases hmoved with
    | moved l' _ hmoved =>
      obtain ⟨g, hg, hch, hglive⟩ := hw.future_before hl hmoved hf hlive
      exact Or.inl ⟨l, hl, g, hg, hglive, hch ▸ hkey⟩
    | delivered e rest _ _ => exact Or.inl ⟨l, hl, f, hf, hlive, hkey⟩
    | opened ha =>
      rcases List.mem_append.mp hf with hf | hf
      · exact Or.inl ⟨l, hl, f, hf, hlive, hkey⟩
      · rw [List.mem_singleton.mp hf] at hkey
        refine Or.inr ((drewId_iff h).mpr ⟨l.id, by rw [ha]; rfl, ?_⟩)
        rw [← (run_numbered hrun).next]
        exact hkey.symm
    | told ch response _ => exact Or.inl ⟨l, hl, f, hf, hlive, hkey⟩

/-- Upgrades come from `listen_protocol`, and what ends them from them. -/
theorem upgrading_before (h : (fileGetSystem config debug).Run (t :: tr) s)
    (hr : t.post.Upgrading r) : t.pre.Upgrading r ∨ drewId t = some r := by
  obtain ⟨hrun, hallowed, -, -⟩ := h.tail
  obtain ⟨hm, hstep⟩ := run_stepped h
  obtain ⟨l', hl', hr⟩ := hr
  cases stepped_linkFrom hm hallowed hstep hl' with
  | new hin _ hpend _ => simp [hin, hpend] at hr
  | old l hl _ _ hmoved =>
    cases hmoved with
    | moved l' _ hmoved =>
      left
      rcases hr with ⟨x, hx, hinfo⟩ | ⟨e, he, hend⟩
      · obtain ⟨y, hy, -, heq, -⟩ := hmoved.substream hx
        exact ⟨l, hl, Or.inl ⟨y, hy, heq ▸ hinfo⟩⟩
      · rcases hmoved.pending he with he | hnone | ⟨sub, hsub, queued, hqueued, he⟩
        · exact ⟨l, hl, Or.inr ⟨e, he, hend⟩⟩
        · simp [FileGetHandlerEvent.inboundId?, hend] at hnone
        · have hinfo := hqueued.concludes e he
          rw [hend] at hinfo
          exact ⟨l, hl, Or.inl ⟨sub, hsub, (Option.some.inj hinfo).symm⟩⟩
    | delivered e rest _ _ => exact Or.inl ⟨l, hl, hr⟩
    | opened ha =>
      rcases hr with ⟨x, hx, hinfo⟩ | hr
      · rcases List.mem_append.mp hx with hx | hx
        · exact Or.inl ⟨l, hl, Or.inl ⟨x, hx, hinfo⟩⟩
        · rw [List.mem_singleton.mp hx] at hinfo
          have hn := run_numbered hrun
          refine Or.inr ((drewId_iff h).mpr ⟨l.id, by rw [ha]; rfl, ?_⟩)
          rw [← hn.next, ← hn.generator]
          exact hinfo.symm
      · exact Or.inl ⟨l, hl, Or.inr hr⟩
    | told ch response _ =>
      left
      rcases hr with ⟨x, hx, hinfo⟩ | hr
      · obtain ⟨y, hy, -, heq, -⟩ := Link.mem_setResponse hx
        exact ⟨l, hl, Or.inl ⟨y, hy, heq ▸ hinfo⟩⟩
      · exact ⟨l, hl, Or.inr hr⟩

/-- A request that is received was in a future. -/
theorem receives_before (h : (fileGetSystem config debug).Run (t :: tr) s)
    (hr : t.post.Receives r) : t.pre.Receives r ∨ drewId t = some r := by
  obtain ⟨hrun, hallowed, -, -⟩ := h.tail
  obtain ⟨hm, hstep⟩ := run_stepped h
  have hn := run_numbered hrun
  rcases hr with hr | ⟨l', hl', e, he, hann⟩ | ⟨p, c, hr⟩
  · exact (expects_before h hr).imp_left Or.inl
  · left
    cases stepped_linkFrom hm hallowed hstep hl' with
    | new _ _ _ hev => simp [hev] at he
    | old l hl _ _ hmoved =>
      cases hmoved with
      | moved l' _ hmoved =>
        rcases hmoved.event he with he | he | ⟨ch, r', m, rfl, hmem⟩
        · exact Or.inr (Or.inl ⟨l, hl, e, he, hann⟩)
        · rw [(hn.links l hl).quiet e he] at hann
          cases hann
        · cases hann
          refine Or.inl ⟨l, hl, _, hmem, by simp, ?_⟩
          exact (((hn.links l hl).future _ hmem).2 r m rfl).symm
      | delivered e' rest _ _ =>
        exact Or.inr (Or.inl ⟨l, hl, e, List.mem_of_mem_tail he, hann⟩)
      | opened _ => exact Or.inr (Or.inl ⟨l, hl, e, he, hann⟩)
      | told ch response _ => exact Or.inr (Or.inl ⟨l, hl, e, he, hann⟩)
  · left
    cases stepped_served hm hstep with
    | same hsame _ _ => exact Or.inr (Or.inr ⟨p, c, (hsame p c r).mp hr⟩)
    | delivered l e rest _ hl he hserving =>
      rcases (hserving p c r).mp hr with ⟨hr, -⟩ | ⟨-, -, hann⟩
      · exact Or.inr (Or.inr ⟨p, c, hr⟩)
      · exact Or.inr (Or.inl ⟨l, hl, e, he ▸ List.mem_cons_self, hann⟩)
    | closed l o i _ _ _ hserving => exact Or.inr (Or.inr ⟨p, c, ((hserving p c r).mp hr).1⟩)

/-- The substream and the future of a new request. -/
theorem opened_of_drewId (h : (fileGetSystem config debug).Run (t :: tr) s)
    (hr : drewId t = some r) : ∃ l ∈ t.post.links,
      ⟨⟨(opens tr).length⟩, .pending⟩ ∈ l.handler.inbound ∧ ∃ sub ∈ l.inbound, sub.info = r := by
  obtain ⟨-, hstep⟩ := run_stepped h
  obtain ⟨c, hc, rfl⟩ := (drewId_iff h).mp hr
  have hn := run_numbered h.tail.1
  clear h hr
  obtain ⟨s, a, s'⟩ := t
  dsimp only at hstep hc hn
  cases hstep with
  | openInbound l hl =>
    refine ⟨(l.openInbound s.fileGet.inboundIdGenerator ⟨s.nextChannel⟩).1,
      List.mem_map.mpr ⟨l, hl, if_pos rfl⟩, ?_, _, List.mem_append_right _ List.mem_cons_self, ?_⟩
    · rw [← hn.next]
      exact List.mem_append_right _ List.mem_cons_self
    · exact hn.generator.trans (congrArg _ hn.next)
  | link a c f hf => cases hf <;> cases hc
  | _ => cases hc

theorem expects_of_drewId (h : (fileGetSystem config debug).Run (t :: tr) s)
    (hr : drewId t = some r) : t.post.Expects r := by
  obtain ⟨l, hl, hf, -⟩ := opened_of_drewId h hr
  obtain ⟨-, -, rfl⟩ := (drewId_iff h).mp hr
  exact ⟨l, hl, _, hf, by simp, rfl⟩

theorem upgrading_of_drewId (h : (fileGetSystem config debug).Run (t :: tr) s)
    (hr : drewId t = some r) : t.post.Upgrading r := by
  obtain ⟨l, hl, -, hsub⟩ := opened_of_drewId h hr
  exact ⟨l, hl, Or.inl hsub⟩

end Held

/-- A future is made for every id and may give one request. -/
def futureAccounting (config : FileGetConfig) (debug : Bool) :
    Accounting (fileGetSystem config debug) RequestId :=
  inboundAccounting config debug System.Expects (by rintro r ⟨l, hl, -⟩; cases hl)
    (fun h _ => expects_before h) fun h _ => expects_of_drewId h

/-- An upgrade is made for every id and ends once. -/
def upgradeAccounting (config : FileGetConfig) (debug : Bool) :
    Accounting (fileGetSystem config debug) RequestId :=
  inboundAccounting config debug System.Upgrading (by rintro r ⟨l, hl, -⟩; cases hl)
    (fun h _ => upgrading_before h) fun h _ => upgrading_of_drewId h

theorem not_receives_init (config : FileGetConfig) (r : RequestId) :
    ¬ (System.init config).Receives r := by
  rintro (⟨l, hl, -⟩ | ⟨l, hl, -⟩ | ⟨p, c, conn, hmem, -⟩)
  · cases hl
  · cases hl
  · simp [System.init, fromConfig, connections] at hmem

/-- A request that leaves its connection does not come back. -/
def receiptAccounting (config : FileGetConfig) (debug : Bool) :
    Accounting (fileGetSystem config debug) RequestId :=
  inboundAccounting config debug System.Receives (not_receives_init config)
    (fun h _ => receives_before h) fun h _ hr => Or.inl (expects_of_drewId h hr)

end FileSharing
