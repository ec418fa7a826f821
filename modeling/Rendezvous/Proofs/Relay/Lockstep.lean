import Rendezvous.Proofs.Relay.Renaming

/-!
# Relays that go on in lockstep

What a handler does with a client depends on nothing but what belongs to the client's key. So the same
handler, on two relays that are alike as far as the key is concerned, has the same result and leaves relays
that are alike again. There is one lemma for each operation, and each uses those of the operations that it is
made of.

A path or a client that is made gets the name that is the next one in its relay. To be alike afterwards the
next names have to go together, where they are taken.

* **`Relay.Coupled`** — two ends of a handler, with the same result and with relays in lockstep.
* **`Lockstep.accept`**, **`Lockstep.sendServerAuth`**, **`Lockstep.received`**,
  **`Lockstep.disconnected`**, **`Lockstep.runJob`** — the handlers.
-/

namespace Rendezvous

namespace Relay

/-- A seat where the clients have other names. -/
def Seat.rename (ρ : Renaming) (seat : Seat) : Seat :=
  ⟨seat.address, seat.displaced.map ρ.client⟩

/-- Two ends of a handler: the result is the same, and the relays are in lockstep. -/
structure Coupled {α : Type} (key : PublicKey) (ρ : Renaming) (queue queue' : List Job)
    (x y : α × Relay) : Prop where
  result : y.1 = x.1
  relays : Lockstep key ρ queue queue' x.2 y.2

variable {r s : Relay} {key : PublicKey} {ρ : Renaming} {id : ClientId} {path : PathId} {c : Client}
  {queue queue' : List Job}

theorem Coupled.exists_eq {α : Type} {x y : α × Relay} (h : Coupled key ρ queue queue' x y) :
    ∃ result r' s', x = (result, r') ∧ y = (result, s') ∧ Lockstep key ρ queue queue' r' s' :=
  ⟨x.1, x.2, y.2, rfl, Prod.ext h.result rfl, h.relays⟩

namespace Lockstep

/-! ## One client -/

theorem update {f : Client → Except ProtocolError Client} (h : Lockstep key ρ queue queue' r s)
    (hid : r.keyOf id = some key)
    (hf : ∀ c n p, f (c.relocate n p) = (f c).map fun c => c.relocate n p)
    (hhome : ∀ c c', f c = .ok c' → c'.home = c.home) :
    Coupled key ρ queue queue' (r.update id f) (s.update (ρ.client id) f) := by
  obtain ⟨c, hc, hkey⟩ := keyOf_eq_some.mp hid
  obtain ⟨n, hs⟩ := h.client id c hc hkey
  unfold Relay.update
  rw [hc, hs]
  dsimp only
  rw [hf]
  cases hok : f c with
  | error e => exact ⟨rfl, h⟩
  | ok c' =>
    have hhome' := hhome c c' hok
    have hset := h.setClient hid ((Client.initiatorKey_of_home hhome').trans hkey) n
    rw [Client.path_of_home hhome'] at hset
    exact ⟨rfl, hset⟩

theorem forward (h : Lockstep key ρ queue queue' r s) (hid : r.keyOf id = some key) (frame : Bytes) :
    Coupled key ρ queue queue' (r.forward id frame) (s.forward (ρ.client id) frame) := by
  obtain ⟨c, hc, hkey⟩ := keyOf_eq_some.mp hid
  obtain ⟨n, hs⟩ := h.client id c hc hkey
  unfold Relay.forward
  rw [hc, hs]
  dsimp only
  refine ⟨rfl, ?_⟩
  show Lockstep _ _ _ _ (r.setClient id (if c.inbox.isEmpty = true then _ else _))
    (s.setClient (ρ.client id) (if c.inbox.isEmpty = true then _ else _))
  split
  · exact h.setClient (c := c.push (.binary frame)) hid hkey n
  · exact h.setClient (c := { c with inbox := c.inbox ++ [.relayed frame] }) hid hkey n

theorem refuse (h : Lockstep key ρ queue queue' r s) (hid : r.keyOf id = some key) (header : Header) :
    Coupled key ρ queue queue' (r.refuse id header) (s.refuse (ρ.client id) header) := by
  obtain ⟨c, hc, hkey⟩ := keyOf_eq_some.mp hid
  obtain ⟨n, hs⟩ := h.client id c hc hkey
  unfold Relay.refuse Relay.update
  rw [hc, hs]
  dsimp only
  rw [Client.id_relocate, Client.pack_relocate]
  cases hpack : c.pack c.id (.sendError header.frameId) with
  | error e => exact ⟨rfl, h⟩
  | ok packed =>
    obtain ⟨reply, c'⟩ := packed
    have hpacked := Client.home_of_pack hpack
    have hhome : (c'.push (.binary reply)).home = c.home := hpacked
    have hset := h.setClient hid ((Client.initiatorKey_of_home hhome).trans hkey) n
    rw [Client.path_of_home hhome] at hset
    have hcounted := hset.count (fun m => { m with sendErrors := m.sendErrors + 1 })
      fun m => { m with sendErrors := m.sendErrors + 1 }
    exact ⟨rfl, hcounted⟩

/-! ## Addresses -/

theorem vacate (h : Lockstep key ρ queue queue' r s) (hpath : r.HasPath path key) (a : Address)
    (id : ClientId) : Coupled key ρ queue queue' (r.vacate path a id)
      (s.vacate (ρ.path path) a (ρ.client id)) := by
  have hsame : ∀ other, (ρ.client other == ρ.client id) = (other == id) := fun other => by
    rw [Bool.eq_iff_iff, beq_iff_eq, beq_iff_eq]
    exact ρ.client.injective.eq_iff
  unfold Relay.vacate
  rw [h.slots hpath, Slots.removeIf_rename ρ.client _ a hsame]
  exact ⟨Option.isSome_map, h.setSlots path _⟩

/-- Both are given the same seat, or none. -/
theorem seat (h : Lockstep key ρ queue queue' r s) (hpath : r.HasPath path key) (id : ClientId)
    (role : Role) :
    (∃ e, r.seat path id role = .error e ∧ s.seat (ρ.path path) (ρ.client id) role = .error e) ∨
    (∃ seat slots, r.seat path id role = .ok (seat, r.setSlots path slots) ∧
      s.seat (ρ.path path) (ρ.client id) role =
        .ok (seat.rename ρ, s.setSlots (ρ.path path) (slots.rename ρ.client))) := by
  have hslots := h.slots hpath
  cases role with
  | initiator =>
    refine .inr ⟨_, _, rfl, ?_⟩
    unfold Relay.seat
    rw [hslots, Slots.setInitiator_rename]
    rfl
  | responder =>
    unfold Relay.seat
    rw [hslots, Slots.add_rename]
    cases hadd : (r.slots path).add id with
    | error e => exact .inl ⟨_, rfl, rfl⟩
    | ok added => exact .inr ⟨⟨added.1, none⟩, added.2, rfl, rfl⟩

theorem otherSide (h : Lockstep key ρ queue queue' r s) (hpath : r.HasPath path key) (role : Role) :
    s.otherSide (ρ.path path) role = r.otherSide path role := by
  unfold Relay.otherSide
  rw [h.slots hpath]
  cases role with
  | initiator => exact congrArg _ (Slots.responderIds_rename ρ.client _)
  | responder =>
    show OtherSide.initiator ((r.slots path).rename ρ.client).initiator.isSome = _
    rw [Slots.initiator_rename, Option.isSome_map]

/-! ## Paths -/

theorem pathFor (h : Lockstep key ρ queue queue' r s)
    (hnext : (r.pathFor key).2.nextPath ≠ r.nextPath → ρ.path r.nextPath = s.nextPath) :
    (s.pathFor key).1 = ρ.path (r.pathFor key).1 ∧
      Lockstep key ρ queue queue' (r.pathFor key).2 (s.pathFor key).2 := by
  have hlive := h.live
  rcases Registry.getOrCreate_cases r.registry key with ⟨found, hfound, heq⟩ | ⟨hnone, heq⟩
  · have heq' : s.registry.getOrCreate key = (ρ.path found, s.registry) := by
      unfold Registry.getOrCreate
      rw [hlive, hfound]
      rfl
    unfold Relay.pathFor
    rw [heq, heq']
    exact ⟨rfl, { h with }⟩
  · have heq' : s.registry.getOrCreate key = (s.nextPath, ⟨s.registry.paths.push
        (.new key (s.registry.created + 1)), (key, s.nextPath) :: s.registry.live,
        s.registry.created + 1⟩) := by
      unfold Registry.getOrCreate
      rw [hlive, hnone]
      rfl
    -- Both make a path, and the names of the two go together.
    have hsame : ρ.path r.nextPath = s.nextPath := by
      refine hnext ?_
      unfold Relay.pathFor
      rw [heq]
      simp [nextPath]
    have hpath : ∀ {t : Relay} {other : PathId} {p : Path ClientId},
        (t.pathFor key).2.registry.path? other = some p ↔ t.registry.path? other = some p ∨
          (t.registry.live.lookup key = none ∧ other = t.nextPath ∧
            p = .new key (t.registry.created + 1)) :=
      Registry.path?_getOrCreate
    have hnone' : s.registry.live.lookup key = none := by rw [hlive, hnone]; rfl
    refine ⟨?_, { h with path := fun other p hp hkey => ?_, noPath := fun other hother => ?_, live := ?_ }⟩
    · unfold Relay.pathFor
      rw [heq, heq']
      exact hsame.symm
    · rcases hpath.mp hp with hold | ⟨-, rfl, rfl⟩
      · obtain ⟨n, hs⟩ := h.path other p hold hkey
        exact ⟨n, hpath.mpr (.inl hs)⟩
      · refine ⟨s.registry.created + 1, hpath.mpr (.inr ⟨hnone', hsame, ?_⟩)⟩
        rw [Path.new, Path.new, Slots.empty_rename]
    · obtain ⟨p, hp, hkey⟩ := hother
      rcases hpath.mp hp with hold | ⟨-, hnew, -⟩
      · obtain ⟨q, hq, hqkey⟩ := h.noPath other ⟨p, hold, hkey⟩
        exact ⟨q, hpath.mpr (.inl hq), hqkey⟩
      · rw [← hsame, ρ.path.injective.eq_iff] at hnew
        exact ⟨_, hpath.mpr (.inr ⟨hnone, hnew, rfl⟩), rfl⟩
    · show (s.registry.getOrCreate key).2.live.lookup key =
        ((r.registry.getOrCreate key).2.live.lookup key).map ρ.path
      rw [heq, heq', List.lookup_cons_self, List.lookup_cons_self, Option.map_some]
      exact congrArg some hsame.symm

theorem livePath (h : Lockstep key ρ queue queue' r s) (hpath : r.HasPath c.path key)
    (hkey : c.initiatorKey = key)
    (hnext : (r.livePath c).2.nextPath ≠ r.nextPath → ρ.path r.nextPath = s.nextPath) (n : Nat) :
    (s.livePath (c.relocate n (ρ.path c.path))).1 = ρ.path (r.livePath c).1 ∧
      Lockstep key ρ queue queue' (r.livePath c).2 (s.livePath (c.relocate n (ρ.path c.path))).2 := by
  obtain ⟨p, hp, hpkey⟩ := hpath
  obtain ⟨m, hs⟩ := h.path c.path p hp hpkey
  have hs' : s.registry.path? (c.relocate n (ρ.path c.path)).path = _ := hs
  unfold Relay.livePath at hnext ⊢
  rw [hp] at hnext ⊢
  rw [hs']
  dsimp only at hnext ⊢
  split
  · next ho =>
    rw [if_pos ho, hkey] at hnext
    rw [hkey]
    exact hkey ▸ h.pathFor hnext
  · exact ⟨rfl, h⟩

theorem prune (h : Lockstep key ρ queue queue' r s) (hr : r.registry.Sound) (hs : s.registry.Sound)
    (hpath : r.HasPath path key) :
    Lockstep key ρ queue queue' { r with registry := (r.registry.prune path).2 }
      { s with registry := (s.registry.prune (ρ.path path)).2 } := by
  have hlookup : s.registry.live.lookup key = some (ρ.path path) ↔
      r.registry.live.lookup key = some path := by
    rw [h.live, Option.map_eq_some_iff]
    constructor
    · rintro ⟨found, hfound, heq⟩
      rw [hfound, ρ.path.injective heq]
    · exact fun hfound => ⟨path, hfound, rfl⟩
  have hprunable : s.registry.isPrunable (ρ.path path) = r.registry.isPrunable path := by
    obtain ⟨p, hp, rfl⟩ := hpath
    obtain ⟨n, hp'⟩ := h.path path p hp rfl
    unfold Registry.isPrunable
    rw [hp, hp']
    show (_ == _ && (p.slots.rename ρ.client).isEmpty) = (_ == _ && p.slots.isEmpty)
    rw [Slots.isEmpty_rename]
    congr 1
    rw [Bool.eq_iff_iff, beq_iff_eq, beq_iff_eq]
    exact hlookup
  have hlive : (s.registry.prune (ρ.path path)).2.live.lookup key =
      ((r.registry.prune path).2.live.lookup key).map ρ.path := by
    rw [Registry.lookup_prune hr, Registry.lookup_prune hs, hprunable, h.live]
    simp only [← h.live, hlookup]
    split <;> simp [h.live]
  refine { h with path := fun other p hp hkey => ?_, noPath := fun other hother => ?_, live := hlive }
  · replace hp : (r.registry.prune path).2.path? other = some p := hp
    show ∃ n, (s.registry.prune (ρ.path path)).2.path? (ρ.path other) = _
    rw [Registry.path?_prune_eq] at hp
    simp only [Registry.path?_prune_eq, hprunable, ρ.path.injective.eq_iff]
    split at hp
    · next hpruned =>
      obtain ⟨q, hq, rfl⟩ := Option.map_eq_some_iff.mp hp
      obtain ⟨n, hq'⟩ := h.path other q hq hkey
      exact ⟨n, by rw [if_pos hpruned, hq', Option.map_some]⟩
    · next hkept =>
      rw [if_neg hkept]
      exact h.path other p hp hkey
  · rw [hasPath_prune] at hother ⊢
    exact h.noPath other hother

/-! ## Connections -/

theorem accept (h : Lockstep key ρ queue queue' r s) (hclient : ρ.client r.nextClient = s.nextClient)
    (hnext : (r.pathFor key).2.nextPath ≠ r.nextPath → ρ.path r.nextPath = s.nextPath)
    (subprotocol : String) (draw : Draw) :
    (s.accept key subprotocol draw).1 = ρ.client (r.accept key subprotocol draw).1 ∧
      Lockstep key ρ queue queue' (r.accept key subprotocol draw).2 (s.accept key subprotocol draw).2 := by
  obtain ⟨hfst, hpath⟩ := h.pathFor hnext
  have haccept : ∀ (t : Relay) id, (t.accept key subprotocol draw).2.client? id =
      if t.nextClient = id then
        some (t.newcomer (t.registry.getOrCreate key).1 key subprotocol draw)
      else t.client? id :=
    fun t => client?_accept t key subprotocol draw
  -- The newcomers are the same but for their paths and connections.
  have hnew : s.newcomer (s.registry.getOrCreate key).1 key subprotocol draw =
      (r.newcomer (r.registry.getOrCreate key).1 key subprotocol draw).relocate s.nextConnection
        (ρ.path (r.registry.getOrCreate key).1) := by
    have hfst' : (s.registry.getOrCreate key).1 = ρ.path (r.registry.getOrCreate key).1 := hfst
    rw [hfst']
    rfl
  refine ⟨hclient.symm, { hpath with client := fun id c hc hkey => ?_, noClient := fun id hid => ?_ }⟩
  · rw [haccept] at hc
    rw [haccept]
    split at hc
    · next heq =>
      subst heq
      cases hc
      exact ⟨s.nextConnection, by rw [if_pos hclient.symm, hnew]; rfl⟩
    · next hne =>
      rw [if_neg fun heq => hne (ρ.client.injective (hclient.trans heq))]
      exact h.client id c hc hkey
  · by_cases heq : r.nextClient = id
    · rw [keyOf, haccept, if_pos heq]
      rfl
    · have hne : s.nextClient ≠ ρ.client id := fun h' => heq (ρ.client.injective (hclient.trans h'))
      rw [keyOf, haccept, if_neg hne] at hid
      rw [keyOf, haccept, if_neg heq]
      exact h.noClient id hid

/-! ## The server's answer -/

theorem onLivePath (h : Lockstep key ρ queue queue' r s) (hr : r.census.Coherent)
    (hc : r.client? id = some c) (hkey : c.initiatorKey = key)
    (hnext : (r.livePath c).2.nextPath ≠ r.nextPath → ρ.path r.nextPath = s.nextPath) (n : Nat) :
    (s.livePath (c.relocate n (ρ.path c.path))).1 = ρ.path (r.livePath c).1 ∧
      Lockstep key ρ queue queue' (r.onLivePath id c)
        (s.onLivePath (ρ.client id) (c.relocate n (ρ.path c.path))) := by
  obtain ⟨hfst, hlive⟩ := h.livePath (hkey ▸ hasPath_of_coherent hr hc) hkey hnext n
  have hid : (r.livePath c).2.keyOf id = some key := by
    rw [keyOf, client?, clients_livePath]
    exact keyOf_eq_some.mpr ⟨c, hc, hkey⟩
  refine ⟨hfst, ?_⟩
  unfold Relay.onLivePath
  rw [hfst]
  exact hlive.setClient (c := { c with path := (r.livePath c).1 }) hid hkey n

theorem settled (h : Lockstep key ρ queue queue' r s) (hid : r.keyOf id = some key)
    (hkey : c.initiatorKey = key) (hpath : r.HasPath c.path key) (a : Admission) (seat : Seat)
    (frame : Bytes) (n : Nat) :
    Lockstep key ρ queue queue' (r.settled c.path id c a seat frame)
      (s.settled (ρ.path c.path) (ρ.client id) (c.relocate n (ρ.path c.path)) a (seat.rename ρ)
        frame) := by
  obtain ⟨outbox, hseated⟩ := seated_eq c a seat.address frame
  have hseated' : seated (c.relocate n (ρ.path c.path)) a seat.address frame =
      (seated c a seat.address frame).relocate n (ρ.path (seated c a seat.address frame).path) := by
    rw [show (seated c a seat.address frame).path = c.path by rw [hseated]]
    unfold seated
    dsimp only
    split <;> rfl
  have hset := h.setClient (c := seated c a seat.address frame) hid (by rw [hseated]; exact hkey) n
  rw [← hseated'] at hset
  exact ((hset.announce hpath a.role (joined a.role seat.address)).count _ _).displace id seat.displaced

theorem answer {a : Admission} (h : Lockstep key ρ queue queue' r s) (hr : r.census.Coherent)
    (hc : r.client? id = some c) (hgone : c.gone = false) (hphase : c.phase = .admitted a)
    (hkey : c.initiatorKey = key)
    (hnext : (r.livePath c).2.nextPath ≠ r.nextPath → ρ.path r.nextPath = s.nextPath) (cookie : Cookie)
    (n : Nat) :
    Coupled key ρ queue queue' (r.answer id c a cookie)
      (s.answer (ρ.client id) (c.relocate n (ρ.path c.path)) a cookie) := by
  obtain ⟨hfst, hlive⟩ := h.onLivePath hr hc hkey hnext n
  have hid : (r.onLivePath id c).keyOf id = some key :=
    keyOf_eq_some.mpr ⟨_, client?_onLivePath hc, hkey⟩
  have hpath : (r.onLivePath id c).HasPath (r.livePath c).1 key :=
    hkey ▸ hasPath_of_coherent ((moves_onLivePath hc hgone hphase).1.coherent hr) (client?_onLivePath hc)
  -- Both go the same way through the answer.
  have hpack : ∀ destination m,
      Client.pack { c.relocate n (ρ.path c.path) with path := ρ.path (r.livePath c).1 } destination m =
        (Client.pack { c with path := (r.livePath c).1 } destination m).map
          fun packed => (packed.1, packed.2.relocate n (ρ.path (r.livePath c).1)) :=
    Client.pack_relocate (c := { c with path := (r.livePath c).1 })
  unfold Relay.answer
  simp only [← onLivePath.eq_1]
  simp only [hfst, hpack]
  rcases hlive.seat hpath id a.role with ⟨e, hseat, hseat'⟩ | ⟨seat, slots, hseat, hseat'⟩
  · simp only [hseat, hseat']
    exact ⟨rfl, hlive⟩
  · have hseated := hlive.setSlots (r.livePath c).1 slots
    have hpath' : ((r.onLivePath id c).setSlots (r.livePath c).1 slots).HasPath (r.livePath c).1 key :=
      hasPath_setSlots.mpr hpath
    have hside := hseated.otherSide hpath' a.role
    simp only [hseat, hseat', Seat.rename, hside]
    cases hpacked : Client.pack { c with path := (r.livePath c).1 } seat.address
        (.serverAuth ⟨cookie, ((r.onLivePath id c).setSlots (r.livePath c).1 slots).otherSide
          (r.livePath c).1 a.role⟩) with
    | error e => exact ⟨rfl, (hseated.vacate hpath' seat.address id).relays⟩
    | ok packed =>
      obtain ⟨frame, c'⟩ := packed
      have hhome := Client.home_of_pack hpacked
      have hcpath : c'.path = (r.livePath c).1 := Client.path_of_home hhome
      have hsettled := hseated.settled (c := c') hid ((Client.initiatorKey_of_home hhome).trans hkey)
        (hcpath ▸ hpath') a seat frame n
      rw [hcpath] at hsettled
      exact ⟨rfl, hsettled⟩

theorem sendServerAuth (h : Lockstep key ρ queue queue' r s) (hr : r.census.Coherent)
    (hid : r.keyOf id = some key)
    (hnext : (r.sendServerAuth id).2.nextPath ≠ r.nextPath → ρ.path r.nextPath = s.nextPath) :
    Coupled key ρ queue queue' (r.sendServerAuth id) (s.sendServerAuth (ρ.client id)) := by
  obtain ⟨c, hc, hkey⟩ := keyOf_eq_some.mp hid
  obtain ⟨n, hs⟩ := h.client id c hc hkey
  unfold Relay.sendServerAuth at hnext ⊢
  rw [hc] at hnext
  rw [hc, hs]
  dsimp only at hnext ⊢
  rw [Client.gone_relocate, Client.phase_relocate, Client.expected_relocate]
  cases hgone : c.gone with
  | true => exact ⟨rfl, h⟩
  | false =>
    rw [hgone] at hnext
    cases hphase : c.phase with
    | admitted a =>
      rw [hphase] at hnext
      cases hexpected : c.expected with
      | none => exact ⟨rfl, h⟩
      | some e =>
        rw [hexpected] at hnext
        have hnames : (r.answer id c a e.cookie).2.nextPath = (r.livePath c).2.nextPath :=
          congrArg Prod.snd (nextNames_answer r id c a e.cookie)
        exact h.answer hr hc hgone hphase hkey (fun hne => hnext (hnames.trans_ne hne)) e.cookie n
    | _ => exact ⟨congrArg Except.error rfl, h⟩

/-! ## Frames -/

theorem passOn (h : Lockstep key ρ queue queue' r s) (hpath : r.HasPath path key)
    (hhouses : r.Houses path key) (header : Header) (frame : Bytes) :
    Coupled key ρ queue queue' (r.passOn path header frame) (s.passOn (ρ.path path) header frame) := by
  unfold Relay.passOn
  rw [h.slots hpath, Slots.get_rename]
  cases hget : (r.slots path).get header.destination with
  | none => exact ⟨rfl, h⟩
  | some peer => exact h.forward (hhouses header.destination peer hget) frame

theorem handleRaw (h : Lockstep key ρ queue queue' r s) (hpath : r.HasPath c.path key)
    (hhouses : r.Houses c.path key) (hid : r.keyOf id = some key) (header : Header) (frame : Bytes)
    (n : Nat) :
    Coupled key ρ queue queue' (r.handleRaw id c header frame)
      (s.handleRaw (ρ.client id) (c.relocate n (ρ.path c.path)) header frame) := by
  have hpassed := h.passOn hpath hhouses header frame
  have hkept := confined_passOn hhouses header frame
  have hown : ((r.slots c.path).rename ρ.client).get c.id = some (ρ.client id) ↔
      (r.slots c.path).get c.id = some id := by
    rw [Slots.get_rename, Option.map_eq_some_iff]
    constructor
    · rintro ⟨other, hother, heq⟩
      rw [hother, ρ.client.injective heq]
    · exact fun hget => ⟨id, hget, rfl⟩
  unfold Relay.handleRaw
  rw [Client.path_relocate, Client.id_relocate, h.slots hpath]
  simp only [hown]
  split
  · obtain ⟨passed, r', s', heq, heq', hrelays⟩ := hpassed.exists_eq
    rw [heq] at hkept ⊢
    rw [heq']
    cases passed with
    | true =>
      refine ⟨rfl, ?_⟩
      dsimp only
      exact hrelays.count _ _
    | false => exact hrelays.refuse (hkept.keyOf id hid) header
  · exact ⟨rfl, h⟩

theorem handleDropResponder (h : Lockstep key ρ queue queue' r s) (hpath : r.HasPath c.path key)
    (responder : Address) (reason : Option CloseCode) (n : Nat) :
    Coupled key ρ queue queue' (r.handleDropResponder c responder reason)
      (s.handleDropResponder (c.relocate n (ρ.path c.path)) responder reason) := by
  have hslots := h.setSlots c.path ((r.slots c.path).del responder).2
  unfold Relay.handleDropResponder
  rw [Client.path_relocate, Client.isAuthenticated_relocate, Client.role?_relocate, h.slots hpath,
    Slots.del_rename]
  split
  · generalize (r.slots c.path).del responder = x at hslots ⊢
    obtain ⟨removed, slots⟩ := x
    cases removed with
    | none => exact ⟨rfl, hslots⟩
    | some other =>
      refine ⟨rfl, ?_⟩
      dsimp only [Option.map_some]
      exact (hslots.close other _).count _ _
  · exact ⟨rfl, h⟩

theorem handleClientAuth (h : Lockstep key ρ queue queue' r s) (hid : r.keyOf id = some key)
    (auth : ClientAuth) :
    Coupled key ρ queue queue' (r.handleClientAuth id auth)
      (s.handleClientAuth (ρ.client id) auth) := by
  have hupdate := h.update (f := fun c => c.authorize r.service auth) hid
    (fun _ _ _ => Client.authorize_relocate r.service auth) fun _ _ => Client.home_of_authorize
  unfold Relay.handleClientAuth
  rw [h.service]
  obtain ⟨outcome, r', s', heq, heq', hrelays⟩ := hupdate.exists_eq
  rw [heq, heq']
  cases outcome with
  | error e => exact ⟨rfl, hrelays⟩
  | ok done =>
    cases done
    exact ⟨rfl, hrelays.dispatch (.answer id)⟩

theorem handle (h : Lockstep key ρ queue queue' r s) (hr : r.census.Coherent)
    (hc : r.client? id = some c) (hkey : c.initiatorKey = key) (m : Message) (n : Nat) :
    Coupled key ρ queue queue' (r.handle id c m)
      (s.handle (ρ.client id) (c.relocate n (ρ.path c.path)) m) := by
  have hid : r.keyOf id = some key := keyOf_eq_some.mpr ⟨c, hc, hkey⟩
  have hpath : r.HasPath c.path key := hkey ▸ hasPath_of_coherent hr hc
  cases m with
  | clientHello own =>
    exact h.update hid (fun _ _ _ => Client.introduce_relocate own) fun _ _ => Client.home_of_introduce
  | clientAuth auth => exact h.handleClientAuth hid auth
  | dropResponder responder reason => exact h.handleDropResponder hpath responder reason n
  | raw header frame => exact h.handleRaw hpath (houses_of_coherent hr hpath) hid header frame n
  | _ => exact ⟨rfl, h⟩

theorem received (h : Lockstep key ρ queue queue' r s) (hr : r.census.Coherent)
    (hid : r.keyOf id = some key) (bytes : Bytes) :
    Coupled key ρ queue queue' (r.received id bytes) (s.received (ρ.client id) bytes) := by
  obtain ⟨c, hc, hkey⟩ := keyOf_eq_some.mp hid
  obtain ⟨n, hs⟩ := h.client id c hc hkey
  unfold Relay.received
  rw [hc, hs]
  dsimp only
  rw [Client.unpack_relocate]
  cases hu : c.unpack bytes with
  | error e => exact ⟨rfl, h⟩
  | ok unpacked =>
    obtain ⟨m, c'⟩ := unpacked
    have hhome := Client.home_of_unpack hu
    have hkey' := (Client.initiatorKey_of_home hhome).trans hkey
    have hclient : (r.setClient id c').client? id = some c' := by
      rw [client?_setClient, if_pos rfl, hc, Option.map_some]
    have hset := h.setClient hid hkey' n
    have hhandled := hset.handle (coherent_setClient_unpack hr hc hu) hclient hkey' m n
    rw [Client.path_of_home hhome] at hhandled
    exact hhandled

/-! ## Departures -/

theorem disconnected (h : Lockstep key ρ queue queue' r s) (hr : r.registry.Sound)
    (hs : s.registry.Sound) (hid : r.keyOf id = some key)
    (hpath : ∀ c, r.client? id = some c → r.HasPath c.path key) :
    Coupled key ρ queue queue' (r.disconnected id) (s.disconnected (ρ.client id)) := by
  obtain ⟨c, hc, hkey⟩ := keyOf_eq_some.mp hid
  obtain ⟨n, hc'⟩ := h.client id c hc hkey
  have hleft : { c.relocate n (ρ.path c.path) with gone := true } =
      Client.relocate { c with gone := true } n (ρ.path c.path) := rfl
  have hgone : Lockstep key ρ queue queue' (r.setClient id { c with gone := true })
      (s.setClient (ρ.client id) (Client.relocate { c with gone := true } n (ρ.path c.path))) :=
    h.setClient (c := { c with gone := true }) hid hkey n
  unfold Relay.disconnected
  rw [hc, hc']
  dsimp only
  rw [hleft, Client.path_relocate, Client.id_relocate, Client.isAuthenticated_relocate,
    Client.role?_relocate]
  have hpath' : (r.setClient id { c with gone := true }).HasPath c.path key := hpath c hc
  replace hr : (r.setClient id { c with gone := true }).registry.Sound := hr
  replace hs : (s.setClient (ρ.client id)
    (Client.relocate { c with gone := true } n (ρ.path c.path))).registry.Sound := hs
  generalize r.setClient id { c with gone := true } = r₁ at hgone hpath' hr ⊢
  generalize s.setClient (ρ.client id) (Client.relocate { c with gone := true } n (ρ.path c.path)) = s₁
    at hgone hs ⊢
  cases c.isAuthenticated with
  | false => exact ⟨rfl, hgone.prune hr hs hpath'⟩
  | true =>
    have hvacated := hgone.vacate hpath' c.id id
    replace hpath' : (r₁.vacate c.path c.id id).2.HasPath c.path key := hasPath_setSlots.mpr hpath'
    have hpruned := hvacated.relays.prune (hr.setSlots _ _) (hs.setSlots _ _) hpath'
    replace hpath' := (hasPath_prune c.path c.path).mpr hpath'
    rw [if_pos rfl, if_pos rfl, hvacated.result]
    generalize ({ (r₁.vacate c.path c.id id).2 with
      registry := ((r₁.vacate c.path c.id id).2.registry.prune c.path).2 } : Relay) = r₂
      at hpruned hpath' ⊢
    generalize ({ (s₁.vacate (ρ.path c.path) c.id (ρ.client id)).2 with
      registry := ((s₁.vacate (ρ.path c.path) c.id (ρ.client id)).2.registry.prune
        (ρ.path c.path)).2 } : Relay) = s₂ at hpruned ⊢
    cases (r₁.vacate c.path c.id id).1 with
    | false => exact ⟨rfl, hpruned⟩
    | true =>
      cases c.role? with
      | none => exact ⟨rfl, hpruned⟩
      | some role =>
        cases role with
        | initiator => exact ⟨rfl, hpruned.announce hpath' .initiator _⟩
        | responder =>
          dsimp only
          rw [hpruned.slots hpath', Slots.initiator_rename]
          cases (r₂.slots c.path).initiator with
          | none => exact ⟨rfl, hpruned⟩
          | some other => exact ⟨rfl, hpruned.announce hpath' .responder _⟩

/-! ## Jobs -/

theorem runJob (h : Lockstep key ρ queue queue' r s) (hr : r.census.Coherent) {job : Job}
    (hid : r.keyOf job.client = some key)
    (hnext : (r.runJob job).nextPath ≠ r.nextPath → ρ.path r.nextPath = s.nextPath) :
    Lockstep key ρ queue queue' (r.runJob job) (s.runJob (ρ.job job)) := by
  cases job with
  | answer id =>
    have hnames : (r.runJob (.answer id)).nextPath = (r.sendServerAuth id).2.nextPath :=
      congrArg Prod.snd (nextNames_runJob_answer r id)
    have hanswered := h.sendServerAuth hr hid fun hne => hnext (hnames.trans_ne hne)
    show Lockstep _ _ _ _ (r.runJob (.answer id)) (s.runJob (.answer (ρ.client id)))
    rw [Job.client] at hanswered
    unfold Relay.runJob
    dsimp only
    obtain ⟨outcome, r', s', heq, heq', hrelays⟩ := hanswered.exists_eq
    rw [heq, heq']
    cases outcome with
    | error e => exact hrelays.fail id e
    | ok done =>
      cases done
      exact hrelays
  | deliver id =>
    replace hid : r.keyOf id = some key := hid
    obtain ⟨c, hc, hkey⟩ := keyOf_eq_some.mp hid
    obtain ⟨n, hs⟩ := h.client id c hc hkey
    have hdelivered : (c.relocate n (ρ.path c.path)).deliverInbox =
        (c.deliverInbox.1, c.deliverInbox.2.relocate n (ρ.path c.path)) :=
      Client.deliverAll_relocate c.inbox
    have hhome : c.deliverInbox.2.home = c.home := Client.home_deliverAll c.inbox c
    have hset := h.setClient hid ((Client.initiatorKey_of_home hhome).trans hkey) n
    rw [Client.path_of_home hhome] at hset
    show Lockstep _ _ _ _ (r.runJob (.deliver id)) (s.runJob (.deliver (ρ.client id)))
    unfold Relay.runJob
    dsimp only
    rw [hc, hs]
    dsimp only
    rw [hdelivered]
    generalize c.deliverInbox = delivered at hset ⊢
    obtain ⟨failure, c'⟩ := delivered
    cases failure with
    | none => exact hset
    | some e => exact hset.fail id e

end Lockstep

end Relay

end Rendezvous
