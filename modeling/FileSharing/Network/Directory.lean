/-
FileSharing.Network.Directory — the table of users, `namespace_peers`: what
one discovery makes of it, and what is left of it over a run.

`discovery_merges_and_answers` is the discovery as a whole: the table
afterwards, the `ListPeers` commands that leave, the answers they get.

Over a run the table only grows: `handle_event` logs an `Expired` event and
keeps the user. An entry is up to date if the peer was listed under the
name and has not expired since; `directory_up_to_date_iff` says that all
entries are so throughout exactly if nobody in the table ever expires.
-/
import FileSharing.Network.NodeTheorems
import FileSharing.Network.Correlation

namespace FileSharing

open Lib

namespace EventLoop

/-! ## One discovery -/

/-- The last registration of the namespace that has an address. -/
def lastRegistration (registrations : List Registration) (namespace_ : Namespace) :
    Option Registration :=
  (registrations.filter fun r => r.namespace_ = namespace_ && !r.addresses.isEmpty).getLast?

/-- One registration: every address writes the same entry. -/
theorem lookup_insertAddresses (addresses : List Multiaddr) (k namespace_ : Namespace)
    (peer : PeerId) (m : HashMap Namespace PeerId) :
    (addresses.foldl (fun peers _ => peers.insert namespace_ peer) m).lookup k =
      if k = namespace_ ∧ addresses ≠ [] then some peer else m.lookup k := by
  induction addresses generalizing m with
  | nil => simp
  | cons a addresses ih =>
    rw [List.foldl_cons, ih, lookup_insert_ite]
    by_cases hk : k = namespace_
    · simp [hk]
    · simp [hk]

/-- All registrations: the last one with an address wins. -/
theorem lookup_insertRegistrations (m : HashMap Namespace PeerId)
    (registrations : List Registration) (k : Namespace) :
    (insertRegistrations m registrations).lookup k =
      ((lastRegistration registrations k).map (·.peerId)).or (m.lookup k) := by
  unfold insertRegistrations lastRegistration
  induction registrations using List.reverseRecOn with
  | nil => rfl
  | append_singleton registrations r ih =>
    rw [List.foldl_append, List.foldl_cons, List.foldl_nil, lookup_insertAddresses, ih,
      List.filter_append]
    by_cases hr : k = r.namespace_ ∧ r.addresses ≠ []
    · obtain ⟨rfl, hne⟩ := hr
      simp [hne]
    · have hdrop : List.filter (fun r => r.namespace_ = k && !r.addresses.isEmpty) [r] = [] := by
        refine List.filter_eq_nil_iff.mpr fun x hx => ?_
        rw [List.mem_singleton.mp hx]
        intro h
        simp only [Bool.and_eq_true, decide_eq_true_eq, Bool.not_eq_true',
          List.isEmpty_eq_false_iff] at h
        exact hr ⟨h.1.symm, h.2⟩
      rw [if_neg hr, hdrop, List.append_nil]

/-- The `ListPeers` commands that are stored. -/
def storedListPeers (pending : HashMap UInt64 CommandRequest) : List CommandRequest :=
  (pending.entries.map (·.2)).filter fun request => request.command = .listPeers

/-- The answers of a discovery are one for each stored `ListPeers`. -/
theorem listPeersAnswers_perm (userNames : List String) (order : IterOrder UInt64)
    (pending : HashMap UInt64 CommandRequest) :
    ((listPeersKeys order pending).filterMap fun k =>
      (pending.lookup k).map (listPeersAnswer userNames)).Perm
      ((storedListPeers pending).map (listPeersAnswer userNames)) := by
  have hkeys : (listPeersKeys order pending).Perm (pending.keys.filter _) :=
    (order.perm pending.keys).filter _
  refine (hkeys.filterMap _).trans (List.Perm.of_eq ?_)
  rw [storedListPeers, ← List.filterMap_eq_map, List.filterMap_filter, List.filterMap_filter,
    AList.keys, List.keys, List.filterMap_map, List.filterMap_map]
  -- an entry of the table is what is found under its key
  refine List.filterMap_congr fun e he => ?_
  have hlook : pending.lookup e.1 = some e.2 := AList.mem_lookup_iff.mpr he
  simp [hlook]

/-- The names in a table of users, as an answer lists them. -/
theorem mem_userNames (order : IterOrder Namespace) (peers : HashMap Namespace PeerId)
    (name : String) :
    name ∈ (order.order peers.keys).map (·.name) ↔ ∃ peer, peers.lookup ⟨name⟩ = some peer := by
  rw [List.mem_map, ← Option.isSome_iff_exists, AList.lookup_isSome]
  constructor
  · rintro ⟨n, hn, rfl⟩
    exact (order.mem_order _ _).mp hn
  · intro h
    exact ⟨⟨name⟩, (order.mem_order _ _).mpr h, rfl⟩

theorem nodup_userNames (order : IterOrder Namespace) (peers : HashMap Namespace PeerId) :
    ((order.order peers.keys).map (·.name)).Nodup := by
  refine (order.nodup_order peers.keys_nodup).map fun n n' h => ?_
  cases n
  cases n'
  exact congrArg Namespace.mk h

/-- All that a discovery does to the loop, and all it answers. -/
structure MergesAndAnswers (l : EventLoop) (registrations : List Registration) (h : Handled) :
    Prop where
  ended : h.ended = none
  table : ∀ n, h.loop.namespacePeers.lookup n =
    ((lastRegistration registrations n).map (·.peerId)).or (l.namespacePeers.lookup n)
  left : ∀ {k request}, l.pendingCommandRequests.lookup k = some request →
    request.command = .listPeers → h.loop.pendingCommandRequests.lookup k = none
  kept : ∀ {k}, (∀ request, l.pendingCommandRequests.lookup k = some request →
      request.command ≠ .listPeers) →
    h.loop.pendingCommandRequests.lookup k = l.pendingCommandRequests.lookup k
  /-- One answer for each command that leaves, with the names of the table
  as it is now. -/
  answers : ∃ userNames : List String, userNames.Nodup ∧
    (∀ name, name ∈ userNames ↔ ∃ peer, h.loop.namespacePeers.lookup ⟨name⟩ = some peer) ∧
    h.effects.Perm ((storedListPeers l.pendingCommandRequests).map fun request =>
      .answer request.responseSender (.ok ⟨request.commandRequestId, .listPeers userNames⟩))
  listFiles : h.loop.pendingListFiles = l.pendingListFiles
  fileGets : h.loop.pendingFileGets = l.pendingFileGets
  rest : h.loop.swarm = l.swarm ∧ h.loop.sharingDir = l.sharingDir ∧
    h.loop.rendezvousPointPeerId = l.rendezvousPointPeerId

/-- **A discovery merges the registrations and answers every `ListPeers`**,
from any state of the loop. -/
theorem discovery_merges_and_answers (debug : Bool) (env : Env) (l : EventLoop)
    (registrations : List Registration) :
    l.MergesAndAnswers registrations
      (l.handleEvent debug env (.rendezvous (.discovered registrations))) where
  ended := rfl
  table := lookup_insertRegistrations l.namespacePeers registrations
  left := by
    intro k request hk hc
    refine (answerListPeers_lookup _ _ _ k).trans (if_pos ?_)
    exact mem_listPeersKeys.mpr ⟨request, hk, hc⟩
  kept := by
    intro k hk
    refine (answerListPeers_lookup _ _ _ k).trans (if_neg fun hmem => ?_)
    obtain ⟨request, hlook, hc⟩ := mem_listPeersKeys.mp hmem
    exact hk request hlook hc
  answers := by
    refine ⟨_, nodup_userNames env.namespaceOrder _, mem_userNames env.namespaceOrder _, ?_⟩
    have heffects := answerListPeers_effects
      ((env.namespaceOrder.order
        (insertRegistrations l.namespacePeers registrations).keys).map (·.name))
      (listPeersKeys env.commandOrder l.pendingCommandRequests)
      (nodup_listPeersKeys env.commandOrder l.pendingCommandRequests) l.pendingCommandRequests
    refine (List.Perm.of_eq heffects).trans ?_
    refine ((listPeersAnswers_perm _ env.commandOrder _).map _).trans (List.Perm.of_eq ?_)
    rw [List.map_map]
    rfl
  listFiles := rfl
  fileGets := rfl
  rest := ⟨rfl, rfl, rfl⟩

/-! ## The table over a run -/

/-- No command changes the table or the rendezvous point. -/
theorem handleCommand_kept (fits : String → Bool) (env : Env) (l : EventLoop)
    (request : CommandRequest) :
    (l.handleCommand fits env request).loop.namespacePeers = l.namespacePeers ∧
      (l.handleCommand fits env request).loop.rendezvousPointPeerId =
        l.rendezvousPointPeerId := by
  have hh := handleCommand_handled fits env l request
  generalize l.handleCommand fits env request = handled at hh
  cases hh <;> exact ⟨rfl, rfl⟩

/-- The table after an event: only a discovery changes it. -/
def directoryAfter (peers : HashMap Namespace PeerId) : SwarmEvent → HashMap Namespace PeerId
  | .rendezvous (.discovered registrations) => insertRegistrations peers registrations
  | _ => peers

theorem handleEvent_kept (debug : Bool) (env : Env) (l : EventLoop) (event : SwarmEvent) :
    (l.handleEvent debug env event).loop.namespacePeers =
        directoryAfter l.namespacePeers event ∧
      (l.handleEvent debug env event).loop.rendezvousPointPeerId = l.rendezvousPointPeerId := by
  cases event with
  | newListenAddr _ | other => exact ⟨rfl, rfl⟩
  | rendezvous event => cases event <;> exact ⟨rfl, rfl⟩
  | listFiles event =>
    cases event with
    | request peer channel =>
      unfold handleEvent
      dsimp only
      cases env.readDir l.sharingDir >>= collectFileNames <;> exact ⟨rfl, rfl⟩
    | response peer i fileNames =>
      unfold handleEvent
      dsimp only
      cases l.pendingListFiles.lookup i with
      | none => exact ⟨rfl, rfl⟩
      | some k =>
        dsimp only
        cases l.pendingCommandRequests.lookup k <;> exact ⟨rfl, rfl⟩
    | outboundFailure _ _ | inboundFailure _ | responseSent _ => exact ⟨rfl, rfl⟩
  | fileGet event =>
    cases event with
    | requestReceived peer r message channel =>
      unfold handleEvent
      dsimp only
      cases env.openRead (Path.push l.sharingDir (utf8 message.fileName)) <;> exact ⟨rfl, rfl⟩
    | responseReceived peer r =>
      unfold handleEvent
      dsimp only
      cases l.pendingFileGets.lookup r with
      | none => exact ⟨rfl, rfl⟩
      | some k =>
        dsimp only
        cases l.pendingCommandRequests.lookup k with
        | none => exact ⟨rfl, rfl⟩
        | some request =>
          dsimp only
          cases request.command with
          | getFile _ _ => exact ⟨rfl, rfl⟩
          | register _ | listPeers | listFiles _ => cases debug <;> exact ⟨rfl, rfl⟩
    | responseSent _ _ | outboundFailure _ _ _ | inboundFailure _ _ _ => exact ⟨rfl, rfl⟩

end EventLoop

namespace Node

/-- What handlers ask of the outside changes neither of the two. -/
theorem after_kept (n : Node) (h : Handled) :
    (n.after h).loop.namespacePeers = h.loop.namespacePeers ∧
      (n.after h).loop.rendezvousPointPeerId = h.loop.rendezvousPointPeerId := by
  have hfold : ∀ (effects : List Effect) (m : Node),
      (effects.foldl perform m).loop.namespacePeers = m.loop.namespacePeers ∧
        (effects.foldl perform m).loop.rendezvousPointPeerId = m.loop.rendezvousPointPeerId := by
    intro effects
    induction effects with
    | nil => exact fun m => ⟨rfl, rfl⟩
    | cons effect effects ih =>
      intro m
      obtain ⟨h₁, h₂⟩ := ih (m.perform effect)
      rw [List.foldl_cons, h₁, h₂]
      cases effect <;> exact ⟨rfl, rfl⟩
  exact hfold h.effects _

end Node

/-- The users and peers a step lists: those of a `Discovered` event. -/
def NodeLabel.listings : NodeLabel → List (Namespace × PeerId)
  | .event (.rendezvous (.discovered registrations)) _ =>
    registrations.map fun r => (r.namespace_, r.peerId)
  | _ => []

/-- The peer a step expires: that of an `Expired` event. -/
def NodeLabel.expired : NodeLabel → Option PeerId
  | .event (.rendezvous (.expired peer)) _ => some peer
  | _ => none

/-- The table after a step. -/
def NodeLabel.directoryAfter (peers : HashMap Namespace PeerId) :
    NodeLabel → HashMap Namespace PeerId
  | .event e _ => EventLoop.directoryAfter peers e
  | _ => peers

/-- What a step does to the table; the rendezvous point stays. -/
theorem step_kept {fits : String → Bool} {debug : Bool} {n n' : Node} {a : NodeLabel}
    (hok : n.step fits debug a = .ok n') :
    n'.loop.namespacePeers = a.directoryAfter n.loop.namespacePeers ∧
      n'.loop.rendezvousPointPeerId = n.loop.rendezvousPointPeerId := by
  cases a with
  | command request env =>
    obtain rfl : _ = n' := Except.ok.inj hok
    rw [(Node.after_kept _ _).1, (Node.after_kept _ _).2]
    exact EventLoop.handleCommand_kept fits env n.loop request
  | event event env =>
    obtain rfl : _ = n' := Except.ok.inj hok
    rw [(Node.after_kept _ _).1, (Node.after_kept _ _).2]
    exact EventLoop.handleEvent_kept debug env n.loop event
  | pollFileGet env =>
    unfold Node.step at hok
    dsimp only at hok
    cases hs : n.loop.swarm.step debug .pollBehaviour with
    | error e => simp [hs, bind, Except.bind] at hok
    | ok swarm =>
      simp only [hs, bind, Except.bind] at hok
      split at hok
      · obtain rfl : _ = n' := Except.ok.inj hok
        rw [(Node.after_kept _ _).1, (Node.after_kept _ _).2]
        exact EventLoop.handleEvent_kept debug env _ _
      · obtain rfl : _ = n' := Except.ok.inj hok
        exact ⟨rfl, rfl⟩
  | swarm label =>
    unfold Node.step at hok
    dsimp only at hok
    cases hs : n.loop.swarm.step debug label with
    | error e => simp [hs, bind, Except.bind] at hok
    | ok swarm =>
      simp only [hs, bind, Except.bind, Except.ok.injEq] at hok
      subst hok
      exact ⟨rfl, rfl⟩
  | lost what =>
    obtain rfl : _ = n' := Except.ok.inj hok
    rw [n.close_loop what]
    exact ⟨rfl, rfl⟩
  | dropSwarm =>
    obtain rfl : _ = n' := Except.ok.inj hok
    exact ⟨rfl, rfl⟩

/-- What is in the table after a step was there before it, or the step
listed it. -/
theorem NodeLabel.lookup_directoryAfter {a : NodeLabel} {peers : HashMap Namespace PeerId}
    {u : Namespace} {p : PeerId} (h : (a.directoryAfter peers).lookup u = some p) :
    peers.lookup u = some p ∨ (u, p) ∈ a.listings := by
  cases a with
  | command _ _ | pollFileGet _ | swarm _ | lost _ | dropSwarm => exact Or.inl h
  | event event env =>
    cases event with
    | newListenAddr _ | other | listFiles _ | fileGet _ => exact Or.inl h
    | rendezvous event =>
      cases event with
      | registered _ _ _ | registerFailed | discoverFailed | expired _ => exact Or.inl h
      | discovered registrations =>
        rw [directoryAfter, EventLoop.directoryAfter, EventLoop.lookup_insertRegistrations] at h
        rcases Option.or_eq_some_iff.mp h with h | ⟨-, h⟩
        · obtain ⟨r, hr, rfl⟩ := Option.map_eq_some_iff.mp h
          have hmem := List.mem_of_getLast? hr
          obtain ⟨hmem, hu⟩ := List.mem_filter.mp hmem
          simp only [Bool.and_eq_true, decide_eq_true_eq] at hu
          exact Or.inr (List.mem_map.mpr ⟨r, hmem, by rw [hu.1]⟩)
        · exact Or.inl h

/-- An expiry changes nothing. -/
theorem NodeLabel.directoryAfter_of_expired {a : NodeLabel} {p : PeerId} (h : a.expired = some p)
    (peers : HashMap Namespace PeerId) : a.directoryAfter peers = peers ∧ a.listings = [] := by
  unfold NodeLabel.expired at h
  split at h
  · exact ⟨rfl, rfl⟩
  · cases h

/-! ### Stale entries -/

/-- The peer was listed under the name, and has not expired since. -/
def Fresh (tr : Trace Node NodeLabel) (u : Namespace) (p : PeerId) : Prop :=
  ∃ newer t older, tr = newer ++ t :: older ∧ (u, p) ∈ t.label.listings ∧
    ∀ s ∈ newer, s.label.expired ≠ some p

/-- Every user in the table is there with reason. -/
def DirectoryFresh (tr : Trace Node NodeLabel) (n : Node) : Prop :=
  ∀ u p, n.loop.namespacePeers.lookup u = some p → Fresh tr u p

/-- The step handles the expiry of a peer that is in the table. -/
def ExpiresListed (t : Transition Node NodeLabel) : Prop :=
  ∃ u p, t.pre.loop.namespacePeers.lookup u = some p ∧ t.label.expired = some p

instance (t : Transition Node NodeLabel) : Decidable (ExpiresListed t) :=
  decidable_of_iff (∃ e ∈ t.pre.loop.namespacePeers.entries, t.label.expired = some e.2)
    ⟨fun ⟨e, he, h⟩ => ⟨e.1, e.2, AList.mem_lookup_iff.mpr he, h⟩,
      fun ⟨u, p, hp, h⟩ => ⟨⟨u, p⟩, AList.mem_lookup_iff.mp hp, h⟩⟩

theorem Fresh.cons {tr : Trace Node NodeLabel} {u : Namespace} {p : PeerId} (h : Fresh tr u p)
    {t : Transition Node NodeLabel} (ht : t.label.expired ≠ some p) : Fresh (t :: tr) u p := by
  obtain ⟨newer, s, older, rfl, hlist, hno⟩ := h
  exact ⟨t :: newer, s, older, rfl, hlist, List.forall_mem_cons.mpr ⟨ht, hno⟩⟩

/-- An entry is not fresh after its peer has expired. -/
theorem not_fresh_of_expires {tr : Trace Node NodeLabel} {t : Transition Node NodeLabel}
    {u : Namespace} {p : PeerId} (ht : t.label.expired = some p) : ¬ Fresh (t :: tr) u p := by
  rintro ⟨newer, s, older, heq, hlist, hno⟩
  cases newer with
  | nil =>
    obtain ⟨rfl, -⟩ := List.cons.inj heq
    rw [(NodeLabel.directoryAfter_of_expired ht ∅).2] at hlist
    cases hlist
  | cons v newer =>
    obtain ⟨rfl, -⟩ := List.cons.inj heq
    exact hno t List.mem_cons_self ht

section Runs

variable {config : FileGetConfig} {debug : Bool} {fits : String → Bool}
  {start : Started config debug} {tr : Trace Node NodeLabel} {n n' : Node} {a : NodeLabel}

/-- One step keeps the table fresh unless it is the expiry of a peer in it. -/
theorem DirectoryFresh.step (h : DirectoryFresh tr n) (hok : n.step fits debug a = .ok n')
    (hno : ¬ ExpiresListed ⟨n, a, n'⟩) : DirectoryFresh (⟨n, a, n'⟩ :: tr) n' := by
  intro u p hlook
  rw [(step_kept hok).1] at hlook
  rcases NodeLabel.lookup_directoryAfter hlook with hpre | hlist
  · exact (h u p hpre).cons fun he => hno ⟨u, p, hpre, he⟩
  · exact ⟨[], _, tr, rfl, hlist, fun _ hs => nomatch hs⟩

/-- A run without such a step. -/
theorem run_directoryFresh (h : (nodeMachine fits start).Run tr n)
    (hno : ∀ t ∈ tr, ¬ ExpiresListed t) : DirectoryFresh tr n := by
  induction h with
  | start =>
    intro u p hlook
    cases hlook
  | next hrun hallowed hok ih =>
    obtain ⟨hlast, hno⟩ := List.forall_mem_cons.mp hno
    exact (ih hno).step hok hlast

/-- **The table is up to date in every state of a run exactly if no peer
in it expires.** -/
theorem directory_up_to_date_iff (h : (nodeMachine fits start).Run tr n) :
    (∀ older m, older <:+ tr → (nodeMachine fits start).Run older m → DirectoryFresh older m) ↔
      ∀ t ∈ tr, ¬ ExpiresListed t := by
  constructor
  · rintro hfresh t ht ⟨u, p, hlook, hexp⟩
    obtain ⟨newer, older, rfl⟩ := List.append_of_mem ht
    have hrun := h.of_suffix (List.suffix_append newer (t :: older))
    obtain ⟨-, -, hok⟩ := h.of_append
    -- the entry is still there
    have hkept : t.post.loop.namespacePeers.lookup u = some p := by
      rw [(step_kept hok).1, (NodeLabel.directoryAfter_of_expired hexp _).1]
      exact hlook
    have hstill := hfresh _ _ (List.suffix_append newer (t :: older)) hrun u p hkept
    exact not_fresh_of_expires hexp hstill
  · intro hno older m hsuffix hrun
    exact run_directoryFresh hrun fun t ht => hno t (hsuffix.subset ht)

end Runs

/-- User `u` is discovered at peer 7, then discovered again at peer 8. -/
theorem directory_up_to_date_iff_moved : ∃ tr n,
    (nodeMachine (fun _ => true) (Started.fresh ⟨10⟩ true)).Run tr n ∧
    n.loop.namespacePeers.lookup ⟨"u"⟩ = some ⟨8⟩ ∧ Fresh tr ⟨"u"⟩ ⟨8⟩ := by
  obtain ⟨tr, n, hrun, hP⟩ := Machine.exists_run_of_labels
    (M := nodeMachine (fun _ => true) (Started.fresh ⟨10⟩ true))
    [.event (.rendezvous (.discovered [⟨⟨"u"⟩, ⟨7⟩, [⟨"a"⟩]⟩])) (.calm 0),
      .event (.rendezvous (.expired ⟨9⟩)) (.calm 0),
      .event (.rendezvous (.discovered [⟨⟨"u"⟩, ⟨8⟩, [⟨"b"⟩]⟩])) (.calm 0)]
    (fun tr n => n.loop.namespacePeers.lookup ⟨"u"⟩ = some ⟨8⟩ &&
      tr.all fun t => !decide (ExpiresListed t))
    (by decide) (by decide)
  simp only [Bool.and_eq_true, decide_eq_true_eq, List.all_eq_true, Bool.not_eq_true',
    decide_eq_false_iff_not] at hP
  have hfresh := (directory_up_to_date_iff hrun).mpr hP.2 tr n List.suffix_rfl hrun
  exact ⟨tr, n, hrun, hP.1, hfresh _ _ hP.1⟩

/-- User `u` is discovered at peer 7, which then expires: `u` is still
there. -/
theorem expired_user_stays : ∃ tr n,
    (nodeMachine (fun _ => true) (Started.fresh ⟨10⟩ true)).Run tr n ∧
    ¬ DirectoryFresh tr n := by
  obtain ⟨newer, t, older, n, hrun, hlabel, hnewer, hP⟩ := Machine.exists_run_split
    (M := nodeMachine (fun _ => true) (Started.fresh ⟨10⟩ true))
    [.event (.rendezvous (.discovered [⟨⟨"u"⟩, ⟨7⟩, [⟨"a"⟩]⟩])) (.calm 0)]
    (.event (.rendezvous (.expired ⟨7⟩)) (.calm 0)) []
    (fun _ _ n => n.loop.namespacePeers.lookup ⟨"u"⟩ = some ⟨7⟩)
    (by decide) (by decide)
  obtain rfl : newer = [] := List.map_eq_nil_iff.mp hnewer
  refine ⟨t :: older, n, hrun, fun hfresh => ?_⟩
  have hexp : t.label.expired = some ⟨7⟩ := by
    rw [hlabel]
    rfl
  exact not_fresh_of_expires hexp (hfresh ⟨"u"⟩ ⟨7⟩ (by simpa using hP))

end FileSharing
