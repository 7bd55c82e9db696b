/-
FileSharing.FileGet.BehaviourTheorems — one specification lemma for each
method of `FileGet`, over three views of its state:

* `connections p` — the list the table holds for `p`, empty if none;
* `buffer p` — the requests waiting for a connection to `p`;
* the relations `Buffered`, `Waiting` and `Serving`: request `r` is in the
  buffer of `p`, in `pending_inbound_responses`, or in
  `pending_outbound_responses` of connection `c` of `p`.

The lemmas reduce every method to three primitive changes: append to
`pending_events` (`push`), change one connection record
(`modifyConnection`), and replace one table entry. Whole runs are reasoned
about with these lemmas only; no later module unfolds a method.

`WellFormed` is what the lemmas need of a state: no stored list is empty,
and the ids in a stored list are distinct. Every reachable state has it
(`Mirror` in `SystemTheorems`).
-/
import FileSharing.FileGet.Behaviour

namespace FileSharing

open Lib

namespace FileGet

variable {s s' : FileGet} {p q : PeerId} {c d : ConnectionId} {r x : RequestId}

/-! ## Views -/

/-- The connections stored for a peer. -/
def connections (s : FileGet) (p : PeerId) : List Connection := (s.connected.lookup p).getD []

/-- The requests buffered for a peer. -/
def buffer (s : FileGet) (p : PeerId) : List FileGetOutboundProtocol :=
  (s.pendingOutboundRequests.lookup p).getD []

/-- Request `r` is buffered for peer `p`. -/
def Buffered (s : FileGet) (p : PeerId) (r : RequestId) : Prop :=
  ∃ request ∈ s.buffer p, request.requestId = r

/-- Connection `c` of `p` has `r` in the set `g` selects. -/
def Holds (s : FileGet) (g : Connection → HashSet RequestId) (p : PeerId) (c : ConnectionId)
    (r : RequestId) : Prop :=
  ∃ conn ∈ s.connections p, conn.id = c ∧ r ∈ g conn

/-- Our request `r` waits for its response on connection `c` of `p`. -/
def Waiting (s : FileGet) (p : PeerId) (c : ConnectionId) (r : RequestId) : Prop :=
  s.Holds (·.pendingInboundResponses) p c r

/-- The remote request `r` waits for our response on connection `c` of `p`. -/
def Serving (s : FileGet) (p : PeerId) (c : ConnectionId) (r : RequestId) : Prop :=
  s.Holds (·.pendingOutboundResponses) p c r

/-- No stored list is empty and the ids in a stored list are distinct. -/
structure WellFormed (s : FileGet) : Prop where
  nonempty : ∀ p l, s.connected.lookup p = some l → l ≠ []
  ids : ∀ p, ((s.connections p).map (·.id)).Nodup

theorem connections_eq_nil (hw : s.WellFormed) :
    s.connections p = [] ↔ s.connected.lookup p = none := by
  unfold connections
  cases h : s.connected.lookup p with
  | none => simp
  | some l => simpa using hw.nonempty p l h

theorem lookup_of_mem {conn : Connection} (h : conn ∈ s.connections p) :
    s.connected.lookup p = some (s.connections p) := by
  unfold connections at h ⊢
  cases hl : s.connected.lookup p with
  | none => simp [hl] at h
  | some l => rfl

/-- The connection found by its id is the one in the list. -/
theorem findConnection_of_mem (hw : s.WellFormed) {conn : Connection}
    (h : conn ∈ s.connections p) : s.findConnection p conn.id = some conn := by
  simp only [findConnection, lookup_of_mem h, Option.bind_some]
  exact find?_eq_some_of_mem (·.id) (hw.ids p) h

/-! ## Appending actions -/

@[simp] theorem push_connections (a : List NetworkBehaviourAction) :
    (s.push a).connections p = s.connections p := rfl

@[simp] theorem push_pendingEvents (a : List NetworkBehaviourAction) :
    (s.push a).pendingEvents = s.pendingEvents ++ a := rfl

@[simp] theorem push_buffer (a : List NetworkBehaviourAction) :
    (s.push a).buffer p = s.buffer p := rfl

@[simp] theorem push_connected (a : List NetworkBehaviourAction) :
    (s.push a).connected = s.connected := rfl

@[simp] theorem push_pendingOutboundRequests (a : List NetworkBehaviourAction) :
    (s.push a).pendingOutboundRequests = s.pendingOutboundRequests := rfl

@[simp] theorem push_requsetIdGenerator (a : List NetworkBehaviourAction) :
    (s.push a).requsetIdGenerator = s.requsetIdGenerator := rfl

@[simp] theorem push_inboundIdGenerator (a : List NetworkBehaviourAction) :
    (s.push a).inboundIdGenerator = s.inboundIdGenerator := rfl

theorem WellFormed.push (hw : s.WellFormed) (a : List NetworkBehaviourAction) :
    (s.push a).WellFormed := ⟨hw.nonempty, hw.ids⟩

/-! ## Changing one connection record -/

/-- `modifyConnection` touches `connected` and nothing else. -/
theorem modifyConnection_eq (f : Connection → Connection) :
    s.modifyConnection p c f =
      { s with connected := (s.modifyConnection p c f).connected } := by
  unfold modifyConnection
  split <;> rfl

@[simp] theorem modifyConnection_pendingEvents (f : Connection → Connection) :
    (s.modifyConnection p c f).pendingEvents = s.pendingEvents := by
  rw [modifyConnection_eq]

@[simp] theorem modifyConnection_pendingOutboundRequests (f : Connection → Connection) :
    (s.modifyConnection p c f).pendingOutboundRequests = s.pendingOutboundRequests := by
  rw [modifyConnection_eq]

@[simp] theorem modifyConnection_buffer (f : Connection → Connection) :
    (s.modifyConnection p c f).buffer q = s.buffer q := by
  unfold buffer
  rw [modifyConnection_pendingOutboundRequests]

@[simp] theorem modifyConnection_requsetIdGenerator (f : Connection → Connection) :
    (s.modifyConnection p c f).requsetIdGenerator = s.requsetIdGenerator := by
  rw [modifyConnection_eq]

@[simp] theorem modifyConnection_inboundIdGenerator (f : Connection → Connection) :
    (s.modifyConnection p c f).inboundIdGenerator = s.inboundIdGenerator := by
  rw [modifyConnection_eq]

/-- The connections after changing one record: every record of `p` with
the id is changed, nothing else is. -/
theorem modifyConnection_connections (hw : s.WellFormed) (f : Connection → Connection) :
    (s.modifyConnection p c f).connections q =
      if q = p then (s.connections p).map (fun x => if x.id = c then f x else x)
      else s.connections q := by
  unfold modifyConnection
  cases hl : s.connected.lookup p with
  | none =>
    have hnil : s.connections p = [] := by simp [connections, hl]
    by_cases hq : q = p
    · subst hq; simp [hnil]
    · simp [hq]
  | some l =>
    have hlp : s.connections p = l := by simp [connections, hl]
    have hmap := updateFirst_eq_map (·.id) c f (hlp ▸ hw.ids p)
    by_cases hq : q = p
    · subst hq; simp [connections, hl, hmap]
    · simp [connections, hq]

/-- A change that keeps the id keeps a state well-formed. -/
theorem WellFormed.modifyConnection (hw : s.WellFormed) {f : Connection → Connection}
    (hf : ∀ x, (f x).id = x.id) : (s.modifyConnection p c f).WellFormed := by
  constructor
  · intro q l hl
    unfold FileGet.modifyConnection at hl
    cases hp : s.connected.lookup p with
    | none => rw [hp] at hl; exact hw.nonempty q l hl
    | some l₀ =>
      simp only [hp, lookup_insert_ite] at hl
      by_cases hq : q = p
      · simp only [hq, if_true, Option.some.injEq] at hl
        have hlen := congrArg List.length (map_updateFirst (fun x => decide (x.id = c)) f
          (·.id) hf l₀)
        have hne := hw.nonempty p l₀ hp
        rintro rfl
        rw [hl] at hlen
        simp only [List.map_nil, List.length_nil, List.length_map] at hlen
        exact hne (List.eq_nil_of_length_eq_zero hlen.symm)
      · simp only [hq, if_false] at hl
        exact hw.nonempty q l hl
  · intro q
    rw [modifyConnection_connections hw]
    split
    · have hcol : ((s.connections p).map fun x => if x.id = c then f x else x).map (·.id)
          = (s.connections p).map (·.id) := by
        rw [List.map_map]
        refine List.map_congr_left fun x _ => ?_
        by_cases hx : x.id = c <;> simp [hx, hf]
      rw [hcol]
      exact hw.ids p
    · exact hw.ids q

/-- What the records hold after a change of one record that keeps its id. -/
theorem holds_modifyConnection (hw : s.WellFormed) {f : Connection → Connection}
    (hf : ∀ x, (f x).id = x.id) (g : Connection → HashSet RequestId) :
    (s.modifyConnection p c f).Holds g q d x ↔
      (s.Holds g q d x ∧ ¬ (q = p ∧ d = c)) ∨
      (q = p ∧ d = c ∧ s.Holds (fun conn => g (f conn)) p c x) := by
  unfold Holds
  rw [modifyConnection_connections hw]
  by_cases hq : q = p
  · subst hq
    simp only [if_true, List.mem_map, true_and]
    constructor
    · rintro ⟨_, ⟨conn, hmem, rfl⟩, hid, hx⟩
      by_cases hc : conn.id = c
      · rw [if_pos hc] at hid hx
        rw [hf] at hid
        exact Or.inr ⟨hid.symm.trans hc, conn, hmem, hc, hx⟩
      · rw [if_neg hc] at hid hx
        exact Or.inl ⟨⟨conn, hmem, hid, hx⟩, fun h => hc (hid.trans h)⟩
    · rintro (⟨⟨conn, hmem, hid, hx⟩, hne⟩ | ⟨rfl, conn, hmem, hid, hx⟩)
      · have hc : conn.id ≠ c := fun h => hne (hid.symm.trans h)
        exact ⟨conn, ⟨conn, hmem, if_neg hc⟩, hid, hx⟩
      · exact ⟨f conn, ⟨conn, hmem, if_pos hid⟩, (hf conn).trans hid, hx⟩
  · simp [hq]

/-! ## Dispatching requests to a connection -/

/-- What the table says about a peer: ids and addresses, in order. -/
def table (s : FileGet) (p : PeerId) : List (ConnectionId × Option Multiaddr) :=
  (s.connections p).map fun conn => (conn.id, conn.address)

/-- A change that keeps ids and addresses keeps what the table says. -/
theorem modifyConnection_table (hw : s.WellFormed) {f : Connection → Connection}
    (hf : ∀ x, (f x).id = x.id) (ha : ∀ x, (f x).address = x.address) :
    (s.modifyConnection p c f).table q = s.table q := by
  unfold table
  rw [modifyConnection_connections hw]
  split
  · rename_i hq
    rw [List.map_map, hq]
    refine List.map_congr_left fun x _ => ?_
    by_cases hx : x.id = c <;> simp [hx, hf, ha]
  · rfl

/-- Enter a request that was handed to the connection. -/
def addWaiting (r : RequestId) (conn : Connection) : Connection :=
  { conn with pendingInboundResponses := conn.pendingInboundResponses.insert r () }

/-- The requests `pending` were handed, in order, to connection `c` of `p`. -/
structure Dispatched (s : FileGet) (p : PeerId) (c : ConnectionId)
    (pending : List FileGetOutboundProtocol) (s' : FileGet) : Prop where
  wf : s'.WellFormed
  table : ∀ q, s'.table q = s.table q
  waiting : ∀ q d x, s'.Waiting q d x ↔
    s.Waiting q d x ∨ (q = p ∧ d = c ∧ ∃ request ∈ pending, request.requestId = x)
  serving : ∀ q d x, s'.Serving q d x ↔ s.Serving q d x
  buffers : s'.pendingOutboundRequests = s.pendingOutboundRequests
  events : s'.pendingEvents = s.pendingEvents ++ pending.map (.notifyHandler p c)
  generator : s'.requsetIdGenerator = s.requsetIdGenerator
  inboundGenerator : s'.inboundIdGenerator = s.inboundIdGenerator

theorem Dispatched.nil (hw : s.WellFormed) : Dispatched s p c [] s :=
  ⟨hw, fun _ => rfl, by simp, fun _ _ _ => Iff.rfl, rfl, by simp, rfl, rfl⟩

theorem Dispatched.append {s₁ s₂ : FileGet} {as bs : List FileGetOutboundProtocol}
    (h₁ : Dispatched s p c as s₁) (h₂ : Dispatched s₁ p c bs s₂) :
    Dispatched s p c (as ++ bs) s₂ where
  wf := h₂.wf
  table q := (h₂.table q).trans (h₁.table q)
  waiting q d x := by
    rw [h₂.waiting, h₁.waiting, or_assoc]
    refine or_congr_right ?_
    simp only [List.mem_append, or_and_right, exists_or, and_or_left]
  serving q d x := (h₂.serving q d x).trans (h₁.serving q d x)
  buffers := h₂.buffers.trans h₁.buffers
  events := by rw [h₂.events, h₁.events, List.map_append, List.append_assoc]
  generator := h₂.generator.trans h₁.generator
  inboundGenerator := h₂.inboundGenerator.trans h₁.inboundGenerator

theorem dispatched_one (hw : s.WellFormed) {conn : Connection} (hc : conn ∈ s.connections p)
    (request : FileGetOutboundProtocol) :
    Dispatched s p conn.id [request]
      ((s.modifyConnection p conn.id (addWaiting request.requestId)).push
        [.notifyHandler p conn.id request]) where
  wf := (hw.modifyConnection (f := addWaiting request.requestId) fun _ => rfl).push _
  table _ := modifyConnection_table hw (f := addWaiting request.requestId) (fun _ => rfl)
    (fun _ => rfl)
  waiting q d x := by
    refine (holds_modifyConnection hw (f := addWaiting request.requestId) (fun _ => rfl) _).trans ?_
    constructor
    · rintro (⟨hold, -⟩ | ⟨rfl, rfl, conn', hmem, hid, hx⟩)
      · exact Or.inl hold
      · rcases (AList.mem_insert _).mp hx with rfl | hx
        · exact Or.inr ⟨rfl, rfl, request, by simp, rfl⟩
        · exact Or.inl ⟨conn', hmem, hid, hx⟩
    · rintro (⟨conn', hmem, hid, hx⟩ | ⟨rfl, rfl, req, hreq, rfl⟩)
      · by_cases hqd : q = p ∧ d = conn.id
        · obtain ⟨rfl, rfl⟩ := hqd
          exact Or.inr ⟨rfl, rfl, conn', hmem, hid, (AList.mem_insert _).mpr (Or.inr hx)⟩
        · exact Or.inl ⟨⟨conn', hmem, hid, hx⟩, hqd⟩
      · rw [List.mem_singleton.mp hreq]
        exact Or.inr ⟨rfl, rfl, conn, hc, rfl, (AList.mem_insert _).mpr (Or.inl rfl)⟩
  serving q d x := by
    refine (holds_modifyConnection hw (f := addWaiting request.requestId) (fun _ => rfl) _).trans ?_
    constructor
    · rintro (⟨hold, -⟩ | ⟨rfl, rfl, hold⟩) <;> exact hold
    · intro hold
      by_cases hqd : q = p ∧ d = conn.id
      · exact Or.inr ⟨hqd.1, hqd.2, hqd.1 ▸ hqd.2 ▸ hold⟩
      · exact Or.inl ⟨hold, hqd⟩
  buffers := modifyConnection_pendingOutboundRequests _
  events := by simp
  generator := modifyConnection_requsetIdGenerator _
  inboundGenerator := modifyConnection_inboundIdGenerator _

/-- The connection that `try_send_request` hands a request with this id
to. -/
def chosenConnection (s : FileGet) (p : PeerId) (r : RequestId) : Option Connection :=
  (s.connections p)[r.val.toNat % (s.connections p).length]?

theorem mem_of_chosenConnection {r : RequestId} {conn : Connection}
    (h : s.chosenConnection p r = some conn) : conn ∈ s.connections p :=
  List.mem_of_getElem? h

/-- `try_send_request`: it gives the request back exactly when the peer has
no connection, and otherwise hands it to one of them. It never panics. -/
theorem trySendRequest_spec (hw : s.WellFormed) (request : FileGetOutboundProtocol) :
    (s.connections p = [] ∧ s.trySendRequest p request = .ok (s, some request)) ∨
    ∃ conn, s.chosenConnection p request.requestId = some conn ∧
      ∃ s', s.trySendRequest p request = .ok (s', none) ∧
        Dispatched s p conn.id [request] s' := by
  cases hl : s.connected.lookup p with
  | none => exact Or.inl ⟨(connections_eq_nil hw).mpr hl, by simp [trySendRequest, hl]⟩
  | some l =>
    have hlp : s.connections p = l := by simp [connections, hl]
    have hne : l ≠ [] := hw.nonempty p l hl
    have hlt : request.requestId.val.toNat % l.length < l.length :=
      Nat.mod_lt _ (List.length_pos_iff.mpr hne)
    obtain ⟨conn, hconn⟩ : ∃ conn, l[request.requestId.val.toNat % l.length]? = some conn :=
      ⟨_, List.getElem?_eq_getElem hlt⟩
    have hchosen : s.chosenConnection p request.requestId = some conn := by
      unfold chosenConnection
      rw [hlp]
      exact hconn
    have hmem := mem_of_chosenConnection hchosen
    refine Or.inr ⟨conn, hchosen, _, ?_, dispatched_one hw hmem request⟩
    have hset := set_eq_map (·.id) (addWaiting request.requestId) (hlp ▸ hw.ids p) hconn
    have hupd := updateFirst_eq_map (·.id) conn.id (addWaiting request.requestId)
      (hlp ▸ hw.ids p)
    simp only [trySendRequest, hl, hconn, List.isEmpty_iff, hne, if_false, modifyConnection]
    simp only [addWaiting] at hset hupd ⊢
    rw [hset, hupd]

/-- The state `send_request` works on once it has drawn its id. -/
def drawn (s : FileGet) : FileGet := { s with requsetIdGenerator := s.requsetIdGenerator.nextId.2 }

/-- The request `send_request` makes. -/
def newRequest (s : FileGet) (m : FileGetMessage) (w : FileWriter) : FileGetOutboundProtocol :=
  ⟨s.requsetIdGenerator.nextId.1, m.fileName, w⟩

/-- The state after a request was buffered and a dial queued. -/
def bufferRequest (s : FileGet) (p : PeerId) (request : FileGetOutboundProtocol) : FileGet :=
  { s.push [.dial p s.newHandler] with
    pendingOutboundRequests := s.pendingOutboundRequests.insert p (s.buffer p ++ [request]) }

/-- `send_request`: buffered behind a dial if the peer has no connection,
dispatched to one of its connections otherwise. It never panics. -/
theorem sendRequest_spec (hw : s.WellFormed) (m : FileGetMessage) (w : FileWriter) :
    (s.connections p = [] ∧ s.sendRequest p m w =
        .ok (s.drawn.bufferRequest p (s.newRequest m w), (s.newRequest m w).requestId)) ∨
    ∃ conn, s.chosenConnection p (s.newRequest m w).requestId = some conn ∧
      ∃ s', s.sendRequest p m w = .ok (s', (s.newRequest m w).requestId) ∧
        Dispatched s.drawn p conn.id [s.newRequest m w] s' := by
  have hw' : s.drawn.WellFormed := ⟨hw.nonempty, hw.ids⟩
  rcases trySendRequest_spec hw' (p := p) (s.newRequest m w) with
    ⟨hnil, ht⟩ | ⟨conn, hc, s', ht, hd⟩
  · refine Or.inl ⟨hnil, ?_⟩
    show (s.drawn.trySendRequest p (s.newRequest m w) >>= _) = _
    rw [ht]
    rfl
  · refine Or.inr ⟨conn, hc, s', ?_, hd⟩
    show (s.drawn.trySendRequest p (s.newRequest m w) >>= _) = _
    rw [ht]
    rfl

/-- The drain of `on_connection_established`: with exactly one connection
`c` stored, every buffered request goes to `c` and none comes back. -/
theorem sendBuffered_spec (pending : List FileGetOutboundProtocol) (hw : s.WellFormed)
    (hone : (s.connections p).map (·.id) = [c]) :
    ∃ s', s.sendBuffered p pending = .ok (s', []) ∧ Dispatched s p c pending s' := by
  induction pending generalizing s with
  | nil => exact ⟨s, rfl, .nil hw⟩
  | cons request rest ih =>
    rcases trySendRequest_spec hw (p := p) request with ⟨hnil, -⟩ | ⟨conn, hc, s₁, ht, hd⟩
    · simp [hnil] at hone
    · have hid : conn.id = c := by
        have := List.mem_map_of_mem (f := (·.id)) (mem_of_chosenConnection hc)
        rw [hone] at this
        exact List.mem_singleton.mp this
      rw [hid] at hd
      have hone₁ : (s₁.connections p).map (·.id) = [c] := by
        have := congrArg (List.map Prod.fst) (hd.table p)
        simpa [table, Function.comp_def, hone] using this
      obtain ⟨s₂, hs₂, hd₂⟩ := ih hd.wf hone₁
      refine ⟨s₂, ?_, hd.append hd₂⟩
      simp only [sendBuffered, ht, hs₂, bind, Except.bind]
      rfl

/-! ## Swarm events -/

theorem addConnection_connections (ep : ConnectedPoint) :
    (s.addConnection p c ep).connections q =
      if q = p then s.connections p ++ [Connection.new c ep.dialedAddress]
      else s.connections q := by
  unfold addConnection connections
  simp only [lookup_insert_ite]
  split <;> rfl

theorem addConnection_table (ep : ConnectedPoint) :
    (s.addConnection p c ep).table q =
      if q = p then s.table p ++ [(c, ep.dialedAddress)] else s.table q := by
  unfold table
  rw [addConnection_connections]
  split
  · simp [Connection.new]
  · rfl

/-- A new record holds nothing. -/
theorem addConnection_holds (ep : ConnectedPoint) {g : Connection → HashSet RequestId}
    (hg : ∀ id a, g (Connection.new id a) = ∅) :
    (s.addConnection p c ep).Holds g q d x ↔ s.Holds g q d x := by
  unfold Holds
  rw [addConnection_connections]
  by_cases hq : q = p
  · subst hq
    simp only [if_true, List.mem_append, List.mem_singleton, or_and_right, exists_or]
    refine or_iff_left ?_
    rintro ⟨conn, rfl, -, hx⟩
    rw [hg] at hx
    exact AList.notMem_empty x hx
  · simp [hq]

theorem WellFormed.addConnection (hw : s.WellFormed) (ep : ConnectedPoint)
    (hfresh : ∀ conn ∈ s.connections p, conn.id ≠ c) : (s.addConnection p c ep).WellFormed := by
  constructor
  · intro q l hl
    simp only [FileGet.addConnection, lookup_insert_ite] at hl
    split at hl
    · simp only [Option.some.injEq] at hl
      simp [← hl]
    · exact hw.nonempty q l hl
  · intro q
    rw [addConnection_connections]
    split
    · rw [List.map_append, List.nodup_append]
      refine ⟨hw.ids p, by simp, ?_⟩
      intro a ha b hb
      obtain ⟨conn, hconn, rfl⟩ := List.mem_map.mp ha
      simp only [List.map_cons, List.map_nil, List.mem_singleton] at hb
      rw [hb]
      exact hfresh conn hconn
    · exact hw.ids q

/-- The buffer entry of a peer is removed. -/
def clearBuffer (s : FileGet) (p : PeerId) : FileGet :=
  { s with pendingOutboundRequests := s.pendingOutboundRequests.erase p }

/-- `on_connection_established`. On the first connection to a peer the
whole buffer goes to that connection; otherwise the buffer stays. -/
theorem onConnectionEstablished_spec (hw : s.WellFormed) (ep : ConnectedPoint) {n : Nat}
    (hfresh : ∀ conn ∈ s.connections p, conn.id ≠ c) (hn : n = (s.connections p).length) :
    ((s.connections p ≠ [] ∨ s.pendingOutboundRequests.lookup p = none) ∧
      s.onConnectionEstablished p c ep n = .ok (s.addConnection p c ep)) ∨
    ∃ pending, s.connections p = [] ∧ s.pendingOutboundRequests.lookup p = some pending ∧
      ∃ s', s.onConnectionEstablished p c ep n = .ok s' ∧
        ((s.addConnection p c ep).clearBuffer p).sendBuffered p pending = .ok (s', []) ∧
        Dispatched ((s.addConnection p c ep).clearBuffer p) p c pending s' := by
  subst hn
  by_cases hnil : s.connections p = []
  · cases hb : s.pendingOutboundRequests.lookup p with
    | none =>
      refine Or.inl ⟨Or.inr rfl, ?_⟩
      have hb' : (s.addConnection p c ep).pendingOutboundRequests.lookup p = none := hb
      simp [onConnectionEstablished, hnil, hb']
    | some pending =>
      have hb' : (s.addConnection p c ep).pendingOutboundRequests.lookup p = some pending := hb
      have hw' : ((s.addConnection p c ep).clearBuffer p).WellFormed :=
        ⟨(hw.addConnection ep hfresh).nonempty, (hw.addConnection ep hfresh).ids⟩
      have hone : (((s.addConnection p c ep).clearBuffer p).connections p).map (·.id) = [c] := by
        show ((s.addConnection p c ep).connections p).map (·.id) = [c]
        simp [addConnection_connections, hnil, Connection.new]
      obtain ⟨s', hs', hd⟩ := sendBuffered_spec pending hw' hone
      refine Or.inr ⟨pending, hnil, rfl, s', ?_, hs', hd⟩
      simp only [onConnectionEstablished, hnil, List.length_nil, if_true, hb']
      show (((s.addConnection p c ep).clearBuffer p).sendBuffered p pending >>= _) = _
      rw [hs']
      rfl
  · refine Or.inl ⟨Or.inl hnil, ?_⟩
    simp [onConnectionEstablished, List.length_eq_zero_iff, hnil]

/-- A list of connections replaces what is stored for a peer; an empty one
removes the key. -/
def storeConnections (s : FileGet) (p : PeerId) (l : List Connection) : FileGet :=
  { s with
    connected := if l.isEmpty then s.connected.erase p else s.connected.insert p l }

theorem storeConnections_lookup (l : List Connection) :
    (s.storeConnections p l).connected.lookup q =
      if q = p then (if l.isEmpty then none else some l) else s.connected.lookup q := by
  unfold storeConnections
  cases h : l.isEmpty
  · simp [lookup_insert_ite]
  · simp [lookup_erase_ite]

theorem storeConnections_connections (l : List Connection) :
    (s.storeConnections p l).connections q = if q = p then l else s.connections q := by
  unfold connections
  rw [storeConnections_lookup]
  by_cases hq : q = p
  · cases l <;> simp [hq]
  · simp [hq]

theorem WellFormed.storeConnections (hw : s.WellFormed) {l : List Connection}
    (hl : (l.map (·.id)).Nodup) : (s.storeConnections p l).WellFormed := by
  constructor
  · intro q k hk
    rw [storeConnections_lookup] at hk
    split at hk
    · split at hk
      · cases hk
      · rename_i hne
        simp only [Option.some.injEq] at hk
        rw [← hk]
        simpa [List.isEmpty_iff] using hne
    · exact hw.nonempty q k hk
  · intro q
    rw [storeConnections_connections]
    split
    · exact hl
    · exact hw.ids q

/-- The connections of a peer without the one that closes. -/
def remaining (s : FileGet) (p : PeerId) (c : ConnectionId) : List Connection :=
  (s.connections p).filter fun x => x.id ≠ c

theorem WellFormed.closed (hw : s.WellFormed) :
    (s.storeConnections p (s.remaining p c)).WellFormed :=
  hw.storeConnections ((List.filter_sublist.map _).nodup (hw.ids p))

/-- `on_connection_closed` on an established connection: its record leaves
the table, and its two sets are reported. -/
theorem onConnectionClosed_spec (hw : s.WellFormed) (o i : IterOrder RequestId)
    {conn : Connection} (hc : conn ∈ s.connections p) :
    s.onConnectionClosed o i p conn.id =
      .ok ((s.storeConnections p (s.remaining p conn.id)).push (closedEvents o i p conn)) := by
  have hfind := find?_eq_some_of_mem Connection.id (hw.ids p) hc
  have hfilter := eraseP_eq_filter Connection.id conn.id (hw.ids p)
  simp only [onConnectionClosed, lookup_of_mem hc, hfind, hfilter]
  rfl

/-- After a close the table of the peer is the old one without the id. -/
theorem closed_table :
    (s.storeConnections p (s.remaining p c)).table q =
      if q = p then (s.table p).filter (fun e => e.1 ≠ c) else s.table q := by
  unfold table
  rw [storeConnections_connections]
  by_cases hq : q = p
  · rw [if_pos hq, if_pos hq, List.filter_map]
    rfl
  · rw [if_neg hq, if_neg hq]

/-- After a close the other records hold what they held. -/
theorem holds_closed (g : Connection → HashSet RequestId) :
    (s.storeConnections p (s.remaining p c)).Holds g q d x ↔
      s.Holds g q d x ∧ ¬ (q = p ∧ d = c) := by
  unfold Holds
  rw [storeConnections_connections]
  by_cases hq : q = p
  · subst hq
    simp only [if_true, remaining, List.mem_filter, decide_eq_true_eq, true_and]
    constructor
    · rintro ⟨conn, ⟨hmem, hne⟩, hid, hx⟩
      exact ⟨⟨conn, hmem, hid, hx⟩, fun h => hne (hid.trans h)⟩
    · rintro ⟨⟨conn, hmem, hid, hx⟩, hne⟩
      exact ⟨conn, ⟨hmem, fun h => hne (hid.symm.trans h)⟩, hid, hx⟩
  · simp [hq]

/-- The change `on_address_change` makes to a record. -/
def readdress (ep : ConnectedPoint) (conn : Connection) : Connection :=
  { conn with address := ep.dialedAddress }

/-- After an address change the table of the peer has the new address. -/
theorem readdress_table (hw : s.WellFormed) (ep : ConnectedPoint) :
    (s.modifyConnection p c (readdress ep)).table q =
      if q = p then (s.table p).map (fun e => if e.1 = c then (c, ep.dialedAddress) else e)
      else s.table q := by
  unfold table
  rw [modifyConnection_connections hw]
  by_cases hq : q = p
  · rw [if_pos hq, if_pos hq, List.map_map, List.map_map]
    refine List.map_congr_left fun x _ => ?_
    by_cases hx : x.id = c <;> simp [hx, readdress]
  · rw [if_neg hq, if_neg hq]

/-- An address change touches no set of requests. -/
theorem holds_readdress (hw : s.WellFormed) (ep : ConnectedPoint)
    {g : Connection → HashSet RequestId} (hg : ∀ conn, g (readdress ep conn) = g conn) :
    (s.modifyConnection p c (readdress ep)).Holds g q d x ↔ s.Holds g q d x := by
  refine (holds_modifyConnection hw (f := readdress ep) (fun _ => rfl) g).trans ?_
  simp only [hg]
  constructor
  · rintro (⟨hold, -⟩ | ⟨rfl, rfl, hold⟩) <;> exact hold
  · intro hold
    by_cases hqd : q = p ∧ d = c
    · exact Or.inr ⟨hqd.1, hqd.2, hqd.1 ▸ hqd.2 ▸ hold⟩
    · exact Or.inl ⟨hold, hqd⟩

/-- `on_address_change` on an established connection changes its address. -/
theorem onAddressChange_spec (hw : s.WellFormed) (ep : ConnectedPoint) {conn : Connection}
    (hc : conn ∈ s.connections p) :
    s.onAddressChange p conn.id ep = .ok (s.modifyConnection p conn.id (readdress ep)) := by
  have hfind := find?_eq_some_of_mem Connection.id (hw.ids p) hc
  simp only [onAddressChange, modifyConnection, lookup_of_mem hc, hfind]
  rfl

/-- `one_dial_failure`: the buffer of the peer is reported and removed. -/
theorem oneDialFailure_eq (s : FileGet) (p : PeerId) :
    (s.pendingOutboundRequests.lookup p = none ∧ s.oneDialFailure (some p) = s) ∨
    ∃ pending, s.pendingOutboundRequests.lookup p = some pending ∧
      s.oneDialFailure (some p) = (s.clearBuffer p).push (pending.map fun request =>
        .generateEvent (.outboundFailure p request.requestId .dialFailure)) := by
  cases h : s.pendingOutboundRequests.lookup p with
  | none => exact Or.inl ⟨rfl, by simp only [oneDialFailure, h]⟩
  | some pending => exact Or.inr ⟨pending, rfl, by simp only [oneDialFailure, h]; rfl⟩

end FileGet

/-! ## Handler events -/

/-- What a handler event does to the record of its connection. -/
def FileGetHandlerEvent.effect : FileGetHandlerEvent → Connection → Connection
  | .request r _ _, conn =>
    { conn with pendingOutboundResponses := conn.pendingOutboundResponses.insert r () }
  | .response r, conn =>
    { conn with pendingInboundResponses := conn.pendingInboundResponses.erase r }
  | .outboundTimeout r, conn =>
    { conn with pendingInboundResponses := conn.pendingInboundResponses.erase r }
  | .outboundUnsupportedProtocols r, conn =>
    { conn with pendingInboundResponses := conn.pendingInboundResponses.erase r }
  | .responseSent r, conn =>
    { conn with pendingOutboundResponses := conn.pendingOutboundResponses.erase r }
  | .responseOmission r, conn =>
    { conn with pendingOutboundResponses := conn.pendingOutboundResponses.erase r }
  | .inboundTimeout r, conn =>
    { conn with pendingOutboundResponses := conn.pendingOutboundResponses.erase r }
  | .inboundUnsupportedProtocols r, conn =>
    { conn with pendingOutboundResponses := conn.pendingOutboundResponses.erase r }

/-- What the behaviour reports to the application for a handler event. -/
def FileGetHandlerEvent.report (p : PeerId) : FileGetHandlerEvent → FileGetEvent
  | .request r m ch => .requestReceived p r m ch
  | .response r => .responseReceived p r
  | .responseSent r => .responseSent p r
  | .responseOmission r => .inboundFailure p r .responseOmission
  | .outboundTimeout r => .outboundFailure p r .timeout
  | .outboundUnsupportedProtocols r => .outboundFailure p r .unsupportedProtocols
  | .inboundTimeout r => .inboundFailure p r .timeout
  | .inboundUnsupportedProtocols r => .inboundFailure p r .unsupportedProtocols

/-- What a `debug_assert!` expects of the record when the event arrives. -/
def FileGetHandlerEvent.Expected (conn : Connection) : FileGetHandlerEvent → Prop
  | .response r => r ∈ conn.pendingInboundResponses
  | .responseSent r => r ∈ conn.pendingOutboundResponses
  | .responseOmission r => r ∈ conn.pendingOutboundResponses
  | _ => True

theorem FileGetHandlerEvent.effect_id (e : FileGetHandlerEvent) (conn : Connection) :
    (e.effect conn).id = conn.id := by cases e <;> rfl

theorem FileGetHandlerEvent.effect_address (e : FileGetHandlerEvent) (conn : Connection) :
    (e.effect conn).address = conn.address := by cases e <;> rfl

/-- The request of ours that a handler event completes. -/
def FileGetHandlerEvent.completes : FileGetHandlerEvent → Option RequestId
  | .response r => some r
  | .outboundTimeout r => some r
  | .outboundUnsupportedProtocols r => some r
  | _ => none

theorem FileGetHandlerEvent.mem_effect_inbound (e : FileGetHandlerEvent) (conn : Connection)
    (x : RequestId) : x ∈ (e.effect conn).pendingInboundResponses ↔
      x ∈ conn.pendingInboundResponses ∧ e.completes ≠ some x := by
  cases e with
  | response r | outboundTimeout r | outboundUnsupportedProtocols r =>
    simp only [effect, completes, AList.mem_erase, ne_eq, Option.some.injEq]
    exact ⟨fun h => ⟨h.2, fun heq => h.1 heq.symm⟩, fun h => ⟨fun heq => h.2 heq.symm, h.1⟩⟩
  | request r m ch | responseSent r | responseOmission r | inboundTimeout r
  | inboundUnsupportedProtocols r => simp [effect, completes]

/-- The remote request an event announces. -/
def FileGetHandlerEvent.announces : FileGetHandlerEvent → Option RequestId
  | .request r _ _ => some r
  | _ => none

/-- The remote request an event ends. -/
def FileGetHandlerEvent.concludes : FileGetHandlerEvent → Option RequestId
  | .responseSent r => some r
  | .responseOmission r => some r
  | .inboundTimeout r => some r
  | .inboundUnsupportedProtocols r => some r
  | _ => none

theorem FileGetHandlerEvent.mem_effect_outbound (e : FileGetHandlerEvent) (conn : Connection)
    (x : RequestId) : x ∈ (e.effect conn).pendingOutboundResponses ↔
      (x ∈ conn.pendingOutboundResponses ∧ e.concludes ≠ some x) ∨ e.announces = some x := by
  cases e with
  | request r m ch => simp [effect, concludes, announces, AList.mem_insert, or_comm, eq_comm]
  | responseSent r | responseOmission r | inboundTimeout r | inboundUnsupportedProtocols r =>
    simp only [effect, concludes, announces, AList.mem_erase, ne_eq, Option.some.injEq,
      reduceCtorEq, or_false]
    exact ⟨fun h => ⟨h.2, fun heq => h.1 heq.symm⟩, fun h => ⟨fun heq => h.2 heq.symm, h.1⟩⟩
  | response r | outboundTimeout r | outboundUnsupportedProtocols r =>
    simp [effect, concludes, announces]

/-- The report of an event that completes a request of ours is about it. -/
theorem FileGetHandlerEvent.report_subject {e : FileGetHandlerEvent} {r : RequestId}
    (p : PeerId) (h : e.completes = some r) : (e.report p).subject = (p, r) := by
  cases e <;> simp_all [completes, report, FileGetEvent.subject]

namespace FileGet

variable {s s' : FileGet} {p : PeerId} {c : ConnectionId}

/-- The state after a handler event of connection `c` of `p`. -/
def afterEvent (s : FileGet) (p : PeerId) (c : ConnectionId) (e : FileGetHandlerEvent) : FileGet :=
  (s.modifyConnection p c e.effect).push [.generateEvent (e.report p)]

theorem afterEvent_pendingEvents (e : FileGetHandlerEvent) :
    (s.afterEvent p c e).pendingEvents = s.pendingEvents ++ [.generateEvent (e.report p)] := by
  simp [afterEvent]

/-- After a handler event our requests wait as before, but for the one the
event completes. -/
theorem afterEvent_waiting (hw : s.WellFormed) (e : FileGetHandlerEvent) {q : PeerId}
    {d : ConnectionId} {x : RequestId} :
    (s.afterEvent p c e).Waiting q d x ↔
      s.Waiting q d x ∧ ¬ (q = p ∧ d = c ∧ e.completes = some x) := by
  refine (holds_modifyConnection hw e.effect_id _).trans ?_
  simp only [Holds, FileGetHandlerEvent.mem_effect_inbound]
  constructor
  · rintro (⟨hold, hne⟩ | ⟨rfl, rfl, conn, hmem, hid, hx, hne⟩)
    · exact ⟨hold, fun h => hne ⟨h.1, h.2.1⟩⟩
    · exact ⟨⟨conn, hmem, hid, hx⟩, fun h => hne h.2.2⟩
  · rintro ⟨⟨conn, hmem, hid, hx⟩, hne⟩
    by_cases hqd : q = p ∧ d = c
    · obtain ⟨rfl, rfl⟩ := hqd
      exact Or.inr ⟨rfl, rfl, conn, hmem, hid, hx, fun h => hne ⟨rfl, rfl, h⟩⟩
    · exact Or.inl ⟨⟨conn, hmem, hid, hx⟩, hqd⟩

/-- After a handler event of a stored connection the remote requests wait
as before, without the one the event ends and with the one it announces. -/
theorem afterEvent_serving (hw : s.WellFormed) {conn : Connection} (hc : conn ∈ s.connections p)
    (hid : conn.id = c) (e : FileGetHandlerEvent) {q : PeerId} {d : ConnectionId}
    {x : RequestId} :
    (s.afterEvent p c e).Serving q d x ↔
      (s.Serving q d x ∧ ¬ (q = p ∧ d = c ∧ e.concludes = some x)) ∨
      (q = p ∧ d = c ∧ e.announces = some x) := by
  refine (holds_modifyConnection hw e.effect_id _).trans ?_
  simp only [Holds, FileGetHandlerEvent.mem_effect_outbound]
  constructor
  · rintro (⟨hold, hne⟩ | ⟨rfl, rfl, conn', hmem, hid', ⟨hx, hne⟩ | hx⟩)
    · exact Or.inl ⟨hold, fun h => hne ⟨h.1, h.2.1⟩⟩
    · exact Or.inl ⟨⟨conn', hmem, hid', hx⟩, fun h => hne h.2.2⟩
    · exact Or.inr ⟨rfl, rfl, hx⟩
  · rintro (⟨⟨conn', hmem, hid', hx⟩, hne⟩ | ⟨rfl, rfl, hx⟩)
    · by_cases hqd : q = p ∧ d = c
      · obtain ⟨rfl, rfl⟩ := hqd
        exact Or.inr ⟨rfl, rfl, conn', hmem, hid', Or.inl ⟨hx, fun h => hne ⟨rfl, rfl, h⟩⟩⟩
      · exact Or.inl ⟨⟨conn', hmem, hid', hx⟩, hqd⟩
    · exact Or.inr ⟨rfl, rfl, conn, hc, hid, Or.inr hx⟩

theorem push_modifyConnection (a : List NetworkBehaviourAction) (f : Connection → Connection) :
    (s.push a).modifyConnection p c f = (s.modifyConnection p c f).push a := by
  unfold modifyConnection push
  cases s.connected.lookup p <;> rfl

/-- `on_connection_handler_event` for a stored connection. If it returns,
the record has changed by the event's effect and the report is queued. -/
theorem onConnectionHandlerEvent_eq {debug : Bool} {conn : Connection} {e : FileGetHandlerEvent}
    (hf : s.findConnection p c = some conn)
    (h : s.onConnectionHandlerEvent debug p c e = .ok s') : s' = s.afterEvent p c e := by
  cases e with
  | request r m ch =>
    have hf' : (s.push [.generateEvent (.requestReceived p r m ch)]).findConnection p c
        = some conn := hf
    simp only [onConnectionHandlerEvent, hf', Except.ok.injEq, push_modifyConnection] at h
    exact h.symm
  | response r | responseSent r | responseOmission r =>
    simp only [onConnectionHandlerEvent, removePendingInboundResponse,
      removePendingOutboundResponse, hf, debugAssert] at h
    split at h
    · cases h
    · exact (Except.ok.inj h).symm
  | outboundTimeout r | outboundUnsupportedProtocols r | inboundTimeout r
  | inboundUnsupportedProtocols r =>
    simp only [onConnectionHandlerEvent, removePendingInboundResponse,
      removePendingOutboundResponse, hf, Except.ok.injEq] at h
    exact h.symm

/-- `on_connection_handler_event` returns when what its `debug_assert!`
expects is so. -/
theorem onConnectionHandlerEvent_ok {conn : Connection} {e : FileGetHandlerEvent}
    (hf : s.findConnection p c = some conn) (he : e.Expected conn) (debug : Bool) :
    s.onConnectionHandlerEvent debug p c e = .ok (s.afterEvent p c e) := by
  suffices h : ∃ s', s.onConnectionHandlerEvent debug p c e = .ok s' by
    obtain ⟨s', hs'⟩ := h
    rw [hs', onConnectionHandlerEvent_eq hf hs']
  cases e with
  | request r m ch =>
    have hf' : (s.push [.generateEvent (.requestReceived p r m ch)]).findConnection p c
        = some conn := hf
    simp only [onConnectionHandlerEvent, hf', Except.ok.injEq, exists_eq']
  | response r | responseSent r | responseOmission r =>
    have hr := he
    simp only [FileGetHandlerEvent.Expected] at hr
    simp only [onConnectionHandlerEvent, removePendingInboundResponse,
      removePendingOutboundResponse, hf, debugAssert, hr, decide_true, Bool.not_true,
      Bool.and_false, Bool.false_eq_true, if_false]
    exact ⟨_, rfl⟩
  | outboundTimeout r | outboundUnsupportedProtocols r | inboundTimeout r
  | inboundUnsupportedProtocols r =>
    simp only [onConnectionHandlerEvent, removePendingInboundResponse,
      removePendingOutboundResponse, hf, Except.ok.injEq, exists_eq']

end FileGet

end FileSharing
