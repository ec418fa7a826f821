import Rendezvous.Proofs.Relay.Bystanders

/-!
# Actions stay with one key

Every client and every path belongs to one key, and so does a job, by the client that it is for. All keys
share one registry, one array of clients and one queue of jobs. Still an action about a client changes
nothing but what belongs to the client's key: others are found by their addresses on the client's own path,
and whoever has an address there came with the same key.

* **`Relay.keyOf`**, **`Relay.jobsOf`** — what belongs to a key.
* **`Relay.Confined`** — from one relay to another nothing changes but what belongs to a key.
* **`Relay.keyOfAction`** — the key that an action is about.
* **`confined_perform`** — an action is confined to its key.
-/

namespace Rendezvous

/-! ## Where a client is at home -/

namespace Client

variable {c c' : Client}

/-- The key that a client came with, and its path. -/
def home (c : Client) : PublicKey × PathId :=
  (c.initiatorKey, c.path)

theorem home_of_standing (h : c'.standing = c.standing) : c'.home = c.home := by
  have hhome := congrArg home h
  exact hhome

theorem home_of_pack {destination : Address} {m : Message} {frame : Bytes}
    (h : c.pack destination m = .ok (frame, c')) : c'.home = c.home :=
  home_of_standing (standing_pack h)

theorem home_of_send {m : Message} (h : c.send m = .ok c') : c'.home = c.home :=
  home_of_standing (standing_send h)

theorem home_deliverAll (deliveries : List Delivery) (c : Client) :
    (c.deliverAll deliveries).2.home = c.home :=
  home_of_standing (standing_deliverAll deliveries c)

theorem home_of_unpack {bytes : Bytes} {m : Message} (h : c.unpack bytes = .ok (m, c')) :
    c'.home = c.home := by
  rcases unpack_cases h with ⟨-, rfl⟩ | ⟨f, next, -, -, rfl⟩ <;> rfl

theorem home_of_map_pack {destination : Address} {m : Message}
    (h : (Prod.snd <$> c.pack destination m) = .ok c') : c'.home = c.home := by
  obtain ⟨⟨frame, c'⟩, hpack, rfl⟩ := map_eq_ok.mp h
  exact home_of_pack hpack

theorem home_of_map_unpack {bytes : Bytes} (h : (Prod.snd <$> c.unpack bytes) = .ok c') :
    c'.home = c.home := by
  obtain ⟨⟨m, c'⟩, hu, rfl⟩ := map_eq_ok.mp h
  exact home_of_unpack hu

theorem home_of_greet (h : c.greet = .ok c') : c'.home = c.home := by
  obtain ⟨-, frame, c₁, hpack, rfl⟩ := greet_eq_ok.mp h
  have hhome := home_of_pack hpack
  exact hhome

theorem home_of_introduce {key : PublicKey} (h : c.introduce key = .ok c') : c'.home = c.home := by
  obtain ⟨-, rfl⟩ := introduce_eq_ok.mp h
  rfl

theorem home_of_authorize {service : Service} {auth : ClientAuth}
    (h : c.authorize service auth = .ok c') : c'.home = c.home := by
  obtain ⟨-, -, -, -, -, -, -, rfl⟩ := authorize_eq_ok.mp h
  rfl

theorem initiatorKey_of_home (h : c'.home = c.home) : c'.initiatorKey = c.initiatorKey :=
  congrArg Prod.fst h

theorem path_of_home (h : c'.home = c.home) : c'.path = c.path :=
  congrArg Prod.snd h

end Client

namespace Relay

/-! ## What belongs to a key -/

/-- The key that a client came with. -/
def keyOf (r : Relay) (id : ClientId) : Option PublicKey :=
  (r.client? id).map Client.initiatorKey

/-- The jobs for clients of a key, the oldest first. -/
def jobsOf (r : Relay) (key : PublicKey) : List Job :=
  r.jobs.pending.filter fun job => r.keyOf job.client = some key

/-- From one relay to another, nothing changes but what belongs to a key, and whatever is new belongs to
it. -/
structure Confined (key : PublicKey) (r s : Relay) : Prop where
  service : s.service = r.service
  client : ∀ id c, c.initiatorKey ≠ key → (s.client? id = some c ↔ r.client? id = some c)
  path : ∀ id p, p.key ≠ key → (s.registry.path? id = some p ↔ r.registry.path? id = some p)
  live : ∀ other, other ≠ key → s.registry.live.lookup other = r.registry.live.lookup other
  jobs : ∀ other, other ≠ key → s.jobsOf other = r.jobsOf other
  /-- Clients and paths of the key stay with it. -/
  keyOf : ∀ id, r.keyOf id = some key → s.keyOf id = some key
  pathOf : ∀ id p, r.registry.path? id = some p → p.key = key →
    ∃ q, s.registry.path? id = some q ∧ q.key = key
  news : ∀ job ∈ s.jobs.pending, job ∈ r.jobs.pending ∨ s.keyOf job.client = some key

variable {r s t : Relay} {key : PublicKey} {id other : ClientId} {path : PathId} {c c' : Client}
  {act : Action}

theorem keyOf_eq_some : r.keyOf id = some key ↔ ∃ c, r.client? id = some c ∧ c.initiatorKey = key :=
  Option.map_eq_some_iff

theorem Confined.refl (key : PublicKey) (r : Relay) : Confined key r r where
  service := rfl
  client _ _ _ := Iff.rfl
  path _ _ _ := Iff.rfl
  live _ _ := rfl
  jobs _ _ := rfl
  keyOf _ h := h
  pathOf _ p h hkey := ⟨p, h, hkey⟩
  news _ h := .inl h

theorem Confined.trans (h : Confined key r s) (h' : Confined key s t) : Confined key r t where
  service := h'.service.trans h.service
  client id c hc := (h'.client id c hc).trans (h.client id c hc)
  path id p hp := (h'.path id p hp).trans (h.path id p hp)
  live other hother := (h'.live other hother).trans (h.live other hother)
  jobs other hother := (h'.jobs other hother).trans (h.jobs other hother)
  keyOf id hid := h'.keyOf id (h.keyOf id hid)
  pathOf id p hp hkey := by
    obtain ⟨q, hq, hqkey⟩ := h.pathOf id p hp hkey
    exact h'.pathOf id q hq hqkey
  news job hjob := by
    rcases h'.news job hjob with hjob | hkey
    · rcases h.news job hjob with hjob | hkey
      · exact .inl hjob
      · exact .inr (h'.keyOf job.client hkey)
    · exact .inr hkey

/-- Where the clients keep their keys, nobody's jobs change unless the queue does. -/
theorem jobsOf_congr (hkeys : ∀ id, s.keyOf id = r.keyOf id) (hjobs : s.jobs = r.jobs)
    (other : PublicKey) : s.jobsOf other = r.jobsOf other := by
  unfold jobsOf
  rw [hjobs]
  exact List.filter_congr fun job _ => by rw [hkeys]

/-! ## Single changes -/

theorem keyOf_modifyClient {f : Client → Client}
    (h : ∀ c, r.client? id = some c → (f c).initiatorKey = c.initiatorKey) (other : ClientId) :
    (r.modifyClient id f).keyOf other = r.keyOf other := by
  unfold keyOf
  rw [client?_modifyClient]
  split
  · next heq =>
    subst heq
    cases hc : r.client? id with
    | none => rfl
    | some c => exact congrArg some (h c hc)
  · rfl

theorem confined_modifyClient {f : Client → Client}
    (h : ∀ c, r.client? id = some c → c.initiatorKey = key ∧ (f c).initiatorKey = key) :
    Confined key r (r.modifyClient id f) := by
  have hkeys : ∀ other, (r.modifyClient id f).keyOf other = r.keyOf other :=
    keyOf_modifyClient fun c hc => (h c hc).2.trans (h c hc).1.symm
  refine ⟨rfl, fun other c hc => ?_, fun _ _ _ => Iff.rfl, fun _ _ => rfl,
    fun other _ => jobsOf_congr hkeys rfl other, fun other hother => (hkeys other).trans hother,
    fun _ p hp hkey => ⟨p, hp, hkey⟩, fun _ hjob => .inl hjob⟩
  rw [client?_modifyClient]
  split
  · next heq =>
    subst heq
    -- Both the client before and the client after are of the key.
    refine ⟨fun hmap => ?_, fun hc' => absurd (h c hc').1 hc⟩
    obtain ⟨d, hd, rfl⟩ := Option.map_eq_some_iff.mp hmap
    exact absurd (h d hd).2 hc
  · exact Iff.rfl

theorem confined_setClient (hc : r.keyOf id = some key) (hc' : c'.initiatorKey = key) :
    Confined key r (r.setClient id c') := by
  refine confined_modifyClient fun d hd => ⟨?_, hc'⟩
  obtain ⟨e, he, hkey⟩ := keyOf_eq_some.mp hc
  cases hd.symm.trans he
  exact hkey

theorem confined_count (key : PublicKey) (r : Relay) (f : Metrics → Metrics) :
    Confined key r (r.count f) :=
  { Confined.refl key r with }

/-- Changes of the registry alone. -/
theorem confined_registry {registry : Registry ClientId}
    (hpath : ∀ id p, p.key ≠ key → (registry.path? id = some p ↔ r.registry.path? id = some p))
    (hlive : ∀ other, other ≠ key → registry.live.lookup other = r.registry.live.lookup other)
    (hkept : ∀ id p, r.registry.path? id = some p → p.key = key →
      ∃ q, registry.path? id = some q ∧ q.key = key) :
    Confined key r { r with registry := registry } :=
  { Confined.refl key r with path := hpath, live := hlive, pathOf := hkept }

theorem confined_setSlots (h : ∀ p, r.registry.path? path = some p → p.key = key)
    (slots : Slots ClientId) : Confined key r (r.setSlots path slots) := by
  refine confined_registry (fun other p hp => ?_) (fun _ _ => rfl) fun other p hp hkey => ?_
  · rw [Registry.path?_setSlots]
    split
    · next heq =>
      subst heq
      refine ⟨fun hmap => ?_, fun hp' => absurd (h p hp') hp⟩
      obtain ⟨q, hq, rfl⟩ := Option.map_eq_some_iff.mp hmap
      exact absurd (h q hq) hp
    · exact Iff.rfl
  · rw [Registry.path?_setSlots, hp]
    split
    · exact ⟨_, rfl, hkey⟩
    · exact ⟨p, rfl, hkey⟩

theorem confined_pathFor (key : PublicKey) (r : Relay) : Confined key r (r.pathFor key).2 := by
  show Confined key r { r with registry := (r.registry.getOrCreate key).2 }
  refine confined_registry (fun other p hp => ?_) (fun other hother => ?_) fun other p hp hkey => ?_
  · rw [Registry.path?_getOrCreate, or_iff_left]
    rintro ⟨-, -, rfl⟩
    exact hp rfl
  · rcases Registry.getOrCreate_cases r.registry key with ⟨id, -, heq⟩ | ⟨-, heq⟩
    · rw [heq]
    · rw [heq]
      rw [List.lookup_cons, beq_false_of_ne hother]
  · exact ⟨p, Registry.path?_getOrCreate.mpr (.inl hp), hkey⟩

theorem confined_prune (hsound : r.registry.Sound)
    (h : ∀ p, r.registry.path? path = some p → p.key = key) :
    Confined key r { r with registry := (r.registry.prune path).2 } := by
  refine confined_registry (fun other p hp => ?_) (fun other hother => ?_) fun other p hp hkey => ?_
  · rcases Registry.prune_cases r.registry path with heq | ⟨q, hq, -, -, heq⟩
    · rw [heq]
    · rw [heq]
      show (r.registry.modify path _).path? other = some p ↔ _
      rw [Registry.path?_modify]
      split
      · next hsame =>
        subst hsame
        refine ⟨fun hmap => ?_, fun hp' => absurd (h p hp') hp⟩
        obtain ⟨p', hp', rfl⟩ := Option.map_eq_some_iff.mp hmap
        exact absurd (h p' hp') hp
      · exact Iff.rfl
  · rw [Registry.lookup_prune hsound, if_neg]
    rintro ⟨-, hlookup⟩
    obtain ⟨p, hp, hkey, -⟩ := hsound.path_of_lookup hlookup
    exact hother (hkey.symm.trans (h p hp))
  · rcases Registry.path?_prune r.registry path other with heq | ⟨q, hq, -, heq⟩
    · exact ⟨p, heq.trans hp, hkey⟩
    · cases hp.symm.trans hq
      exact ⟨_, heq, hkey⟩

theorem confined_dispatch {job : Job} (h : r.keyOf job.client = some key) :
    Confined key r (r.dispatch job) := by
  refine { Confined.refl key r with jobs := fun other hother => ?_, news := fun job' hjob => ?_ }
  · show List.filter _ (r.jobs.pending ++ [job]) = _
    have hnot : ¬ (r.dispatch job).keyOf job.client = some other := fun h' =>
      hother (Option.some.inj (h'.symm.trans h))
    rw [List.filter_append, List.filter_cons_of_neg (by simpa using hnot), List.filter_nil,
      List.append_nil]
    rfl
  · rcases List.mem_append.mp hjob with hjob | hjob
    · exact .inl hjob
    · cases List.mem_singleton.mp hjob
      exact .inr h

/-! ## Reaching clients -/

theorem confined_update {f : Client → Except ProtocolError Client} (hid : r.keyOf id = some key)
    (h : ∀ c c', f c = .ok c' → c'.home = c.home) : Confined key r (r.update id f).2 := by
  rcases update_cases r id f with ⟨-, heq⟩ | ⟨c, e, -, -, heq⟩ | ⟨c, c', hc, hf, heq⟩
  · rw [heq]
    exact .refl key r
  · rw [heq]
    exact .refl key r
  · rw [heq]
    refine confined_setClient hid ?_
    rw [Client.initiatorKey_of_home (h c c' hf), ← Option.some.injEq, ← hid, keyOf, hc,
      Option.map_some]

/-- Changing a client of the key who keeps it. -/
theorem confined_client {f : Client → Client} (hid : r.keyOf id = some key)
    (h : ∀ c, (f c).initiatorKey = c.initiatorKey) : Confined key r (r.modifyClient id f) := by
  refine confined_modifyClient fun c hc => ?_
  have hkey : c.initiatorKey = key := by
    rw [keyOf, hc, Option.map_some, Option.some.injEq] at hid
    exact hid
  exact ⟨hkey, (h c).trans hkey⟩

theorem confined_close (hid : r.keyOf id = some key) (code : CloseCode) :
    Confined key r (r.close id code) :=
  confined_client hid fun _ => rfl

theorem confined_fail (hid : r.keyOf id = some key) (e : ProtocolError) :
    Confined key r (r.fail id e) := by
  unfold fail
  dsimp only
  split
  · refine (confined_count key r _).trans (confined_close ?_ _)
    exact hid
  · exact confined_close hid _

theorem confined_notify (hid : r.keyOf id = some key) (m : Message) :
    Confined key r (r.notify id m) := by
  have hinbox := confined_client (f := fun c => { c with inbox := c.inbox ++ [.notice m] }) hid
    fun _ => rfl
  exact hinbox.trans (confined_dispatch (hinbox.keyOf id hid))

theorem confined_notifyAll {ids : List ClientId} (h : ∀ id ∈ ids, r.keyOf id = some key)
    (m : Message) : Confined key r (r.notifyAll ids m) := by
  induction ids generalizing r with
  | nil => exact .refl key r
  | cons id rest ih =>
    have hfirst := confined_notify (h id (.head rest)) m
    exact hfirst.trans (ih fun other hother => hfirst.keyOf other (h other (.tail id hother)))

/-- A path of a key. -/
def HasPath (r : Relay) (path : PathId) (key : PublicKey) : Prop :=
  ∃ p, r.registry.path? path = some p ∧ p.key = key

/-- Everybody who has an address on a path came with a key. -/
def Houses (r : Relay) (path : PathId) (key : PublicKey) : Prop :=
  ∀ a id, (r.slots path).get a = some id → r.keyOf id = some key

theorem hasPath_of_coherent (hr : r.census.Coherent) (hc : r.client? id = some c) :
    r.HasPath c.path c.initiatorKey :=
  hr.onPath id c.standing (census_client? hc)

/-- Who has an address on a path came with the path's key. -/
theorem houses_of_coherent (hr : r.census.Coherent) (h : r.HasPath path key) : r.Houses path key := by
  obtain ⟨p, hp, hkey⟩ := h
  intro a id hget
  obtain ⟨q, c, hc, hoccupant⟩ := occupant_of_get hr hget
  obtain ⟨p', hp', hkey'⟩ := hasPath_of_coherent hr hc
  rw [hoccupant.path_eq, hp] at hp'
  cases hp'
  exact keyOf_eq_some.mpr ⟨c, hc, hkey'.symm.trans hkey⟩

theorem Confined.hasPath (h : Confined key r s) (hpath : r.HasPath path key) : s.HasPath path key := by
  obtain ⟨p, hp, hkey⟩ := hpath
  exact h.pathOf path p hp hkey

theorem HasPath.confined_setSlots (h : r.HasPath path key) (slots : Slots ClientId) :
    Confined key r (r.setSlots path slots) := by
  obtain ⟨p, hp, hkey⟩ := h
  refine Relay.confined_setSlots (fun q hq => ?_) slots
  cases hp.symm.trans hq
  exact hkey

theorem confined_announce (h : r.Houses path key) (role : Role) (m : Message) :
    Confined key r (r.announce path role m) := by
  rw [announce_eq]
  refine confined_notifyAll (fun other hother => ?_) m
  obtain ⟨a, hget, -⟩ := mem_audience.mp hother
  exact h a other hget

theorem confined_displace {displaced : Option ClientId}
    (h : ∀ other ∈ displaced, r.keyOf other = some key) : Confined key r (r.displace id displaced) := by
  unfold displace
  split
  · next other =>
    split
    · exact .refl key r
    · exact confined_close (h other rfl) _
  · exact .refl key r

theorem confined_forward (h : r.keyOf other = some key) (frame : Bytes) :
    Confined key r (r.forward other frame).2 := by
  unfold forward
  split
  · exact .refl key r
  · next c hc =>
    refine confined_setClient h ?_
    have hkey : c.initiatorKey = key := by
      rw [keyOf, hc, Option.map_some, Option.some.injEq] at h
      exact h
    split <;> exact hkey

/-! ## Handlers -/

theorem confined_onLivePath (hid : r.keyOf id = some key) (hkey : c.initiatorKey = key) :
    Confined key r (r.onLivePath id c) := by
  have hlive : Confined key r (r.livePath c).2 := by
    rcases livePath_cases r c with ⟨heq, -⟩ | ⟨p, -, -, heq⟩
    · rw [heq]
      exact .refl key r
    · rw [heq, hkey]
      exact confined_pathFor key r
  exact hlive.trans (confined_setClient (hlive.keyOf id hid) hkey)

theorem confined_settled {a : Admission} {s : Seat} {frame : Bytes} (hid : r.keyOf id = some key)
    (hkey : c.initiatorKey = key) (h : r.Houses path key)
    (hdisplaced : ∀ other ∈ s.displaced, r.keyOf other = some key) :
    Confined key r (r.settled path id c a s frame) := by
  obtain ⟨outbox, hseated⟩ := seated_eq c a s.address frame
  have hset : Confined key r (r.setClient id (seated c a s.address frame)) := by
    refine confined_setClient hid ?_
    rw [hseated]
    exact hkey
  have htold := hset.trans (confined_announce (fun b other hget => hset.keyOf other (h b other hget))
    a.role (joined a.role s.address))
  have hcounted := htold.trans
    (confined_count key _ fun m => { m with authenticated := m.authenticated + 1 })
  exact hcounted.trans (confined_displace fun other hother =>
    hcounted.keyOf other (hdisplaced other hother))

theorem confined_answer {a : Admission} (hr : r.census.Coherent) (hc : r.client? id = some c)
    (hgone : c.gone = false) (hphase : c.phase = .admitted a) (hkey : c.initiatorKey = key)
    (cookie : Cookie) : Confined key r (r.answer id c a cookie).2 := by
  have hid : r.keyOf id = some key := keyOf_eq_some.mpr ⟨c, hc, hkey⟩
  have hlive := confined_onLivePath hid hkey
  have hcoherent := (moves_onLivePath hc hgone hphase).1.coherent hr
  have hpath : (r.onLivePath id c).HasPath (r.livePath c).1 key :=
    hkey ▸ hasPath_of_coherent hcoherent (client?_onLivePath hc)
  have hhouses := houses_of_coherent hcoherent hpath
  rcases answer_cases r id c a cookie with ⟨e, -, heq⟩ | ⟨s, r', e, hseat, -, heq⟩ |
    ⟨s, r', frame, c', hseat, hpack, heq⟩
  · rw [heq]
    exact hlive
  · obtain ⟨slots, rfl, -⟩ := seat_eq_ok hseat
    have hseated := hpath.confined_setSlots slots
    rw [heq]
    exact (hlive.trans hseated).trans ((hseated.hasPath hpath).confined_setSlots _)
  · obtain ⟨slots, rfl, -, hdisplaced, -, hslots⟩ := seat_eq_ok hseat
    have hseated := hpath.confined_setSlots slots
    obtain ⟨next, -, rfl⟩ := Client.eq_of_pack hpack
    rw [heq]
    refine (hlive.trans hseated).trans (confined_settled ?_ hkey ?_ ?_)
    · exact hseated.keyOf id (hlive.keyOf id hid)
    · -- Whoever has an address had it before, or it is the client itself.
      intro b other hget
      obtain ⟨p, hp, -⟩ := hpath
      rw [slots_setSlots slots (by simp [hp]), hslots b] at hget
      split at hget
      · cases hget
        exact hseated.keyOf id (hlive.keyOf id hid)
      · exact hseated.keyOf other (hhouses b other hget)
    · intro other hother
      rw [hdisplaced] at hother
      exact hseated.keyOf other (hhouses s.address other hother)

theorem confined_sendServerAuth (hr : r.census.Coherent) (hid : r.keyOf id = some key) :
    Confined key r (r.sendServerAuth id).2 := by
  rcases sendServerAuth_cases r id with ⟨outcome, heq⟩ | ⟨c, a, e, hc, hgone, hphase, -, heq⟩
  · rw [heq]
    exact .refl key r
  · obtain ⟨d, hd, hkey⟩ := keyOf_eq_some.mp hid
    cases hc.symm.trans hd
    rw [heq]
    exact confined_answer hr hc hgone hphase hkey e.cookie

theorem confined_refuse (hid : r.keyOf id = some key) (h : Header) :
    Confined key r (r.refuse id h).2 := by
  rcases refuse_cases r id h with ⟨f, -, heq⟩ | ⟨c, e, -, -, heq⟩ | ⟨c, reply, c', f, hc, hpack, heq⟩
  · rw [heq]
    exact confined_count key r f
  · rw [heq]
    exact .refl key r
  · obtain ⟨d, hd, hkey⟩ := keyOf_eq_some.mp hid
    cases hc.symm.trans hd
    have hreplied : Confined key r (r.setClient id (c'.push (.binary reply))) :=
      confined_setClient hid ((Client.initiatorKey_of_home (Client.home_of_pack hpack)).trans hkey)
    rw [heq]
    exact hreplied.trans (confined_count key _ f)

theorem confined_passOn (h : r.Houses path key) (header : Header) (frame : Bytes) :
    Confined key r (r.passOn path header frame).2 := by
  unfold passOn
  split
  · next peer hpeer => exact confined_forward (h header.destination peer hpeer) frame
  · exact .refl key r

theorem confined_handleRaw (h : r.Houses c.path key) (hid : r.keyOf id = some key) (header : Header)
    (frame : Bytes) : Confined key r (r.handleRaw id c header frame).2 := by
  have hpassed := confined_passOn h header frame
  unfold handleRaw
  split
  · split
    · next s hs =>
      rw [hs] at hpassed
      dsimp only at hpassed ⊢
      exact hpassed.trans (confined_count key s _)
    · next s hs =>
      rw [hs] at hpassed
      exact hpassed.trans (confined_refuse (hpassed.keyOf id hid) header)
  · exact .refl key r

theorem confined_handleDropResponder (h : r.Houses c.path key) (hpath : r.HasPath c.path key)
    (responder : Address) (reason : Option CloseCode) :
    Confined key r (r.handleDropResponder c responder reason).2 := by
  have hslots := hpath.confined_setSlots ((r.slots c.path).del responder).2
  rcases handleDropResponder_cases r c responder reason with ⟨-, heq⟩ | ⟨-, -, -, heq⟩ |
    ⟨other, f, -, -, hget, heq⟩
  · rw [heq]
    exact .refl key r
  · rw [heq]
    exact hslots
  · have hother := hslots.keyOf other (h responder other hget)
    rw [heq]
    exact (hslots.trans (confined_close hother _)).trans (confined_count key _ f)

theorem confined_handle (hr : r.census.Coherent) (hc : r.client? id = some c)
    (hkey : c.initiatorKey = key) (m : Message) : Confined key r (r.handle id c m).2 := by
  have hid : r.keyOf id = some key := keyOf_eq_some.mpr ⟨c, hc, hkey⟩
  have hpath : r.HasPath c.path key := hkey ▸ hasPath_of_coherent hr hc
  have hhouses := houses_of_coherent hr hpath
  cases m with
  | clientHello own => exact confined_update hid fun _ _ => Client.home_of_introduce
  | clientAuth auth =>
    have hupdate : Confined key r (r.update id fun c => c.authorize r.service auth).2 :=
      confined_update hid fun _ _ => Client.home_of_authorize
    obtain ⟨outcome, s, hs, heq⟩ := handleClientAuth_cases r id auth
    rw [hs] at hupdate
    show Confined key r (r.handleClientAuth id auth).2
    rcases heq with heq | heq
    · rw [heq]
      exact hupdate
    · rw [heq]
      exact hupdate.trans (confined_dispatch (hupdate.keyOf id hid))
  | dropResponder responder reason => exact confined_handleDropResponder hhouses hpath responder reason
  | raw h frame => exact confined_handleRaw hhouses hid h frame
  | _ => exact .refl key r

/-- A relay is coherent while a frame of a client is handled. -/
theorem coherent_setClient_unpack (hr : r.census.Coherent) (hc : r.client? id = some c) {bytes : Bytes}
    {m : Message} (h : c.unpack bytes = .ok (m, c')) : (r.setClient id c').census.Coherent := by
  have hcoherent := coherent_hear hr id bytes
  unfold hear update at hcoherent
  rw [hc] at hcoherent
  dsimp only at hcoherent
  rw [h] at hcoherent
  exact hcoherent

theorem confined_received (hr : r.census.Coherent) (hid : r.keyOf id = some key) (bytes : Bytes) :
    Confined key r (r.received id bytes).2 := by
  rcases received_cases r id bytes with ⟨outcome, heq⟩ | ⟨c, m, c', hc, hu, heq⟩
  · rw [heq]
    exact .refl key r
  · obtain ⟨d, hd, hkey⟩ := keyOf_eq_some.mp hid
    cases hc.symm.trans hd
    have hkey' := (Client.initiatorKey_of_home (Client.home_of_unpack hu)).trans hkey
    have hclient : (r.setClient id c').client? id = some c' := by
      rw [client?_setClient, if_pos rfl, hc, Option.map_some]
    rw [heq]
    exact (confined_setClient hid hkey').trans
      (confined_handle (coherent_setClient_unpack hr hc hu) hclient hkey' m)

theorem confined_departed (hr : r.census.Coherent) (hc : r.client? id = some c)
    (hkey : c.initiatorKey = key) : Confined key r (r.departed id c) := by
  have hid : r.keyOf id = some key := keyOf_eq_some.mpr ⟨c, hc, hkey⟩
  have hpath : r.HasPath c.path key := hkey ▸ hasPath_of_coherent hr hc
  have hgone : Confined key r (r.setClient id { c with gone := true }) := confined_setClient hid hkey
  unfold departed
  dsimp only
  split
  · have hvacated : Confined key r ((r.setClient id { c with gone := true }).vacate c.path c.id id).2 :=
      hgone.trans ((hgone.hasPath hpath).confined_setSlots _)
    refine hvacated.trans (confined_prune (Registry.Sound.setSlots hr.sound _ _) ?_)
    obtain ⟨p, hp, hpkey⟩ := hvacated.hasPath hpath
    intro q hq
    cases hp.symm.trans hq
    exact hpkey
  · refine hgone.trans (confined_prune hr.sound ?_)
    obtain ⟨p, hp, hpkey⟩ := hgone.hasPath hpath
    intro q hq
    cases hp.symm.trans hq
    exact hpkey

theorem confined_disconnected (hr : r.census.Coherent) (hid : r.keyOf id = some key) :
    Confined key r (r.disconnected id).2 := by
  obtain ⟨d, hd, hkey⟩ := keyOf_eq_some.mp hid
  rcases disconnected_cases r id with ⟨hnone, -⟩ | ⟨c, outcome, hc, -, heq⟩ |
    ⟨c, role, outcome, hc, -, -, -, heq⟩
  · cases hd.symm.trans hnone
  · cases hc.symm.trans hd
    rw [heq]
    exact confined_departed hr hc hkey
  · cases hc.symm.trans hd
    have hdeparted := confined_departed hr hd hkey
    have hpath : r.HasPath d.path key := hkey ▸ hasPath_of_coherent hr hd
    have hhouses := houses_of_coherent ((moves_departed hd).coherent hr) (hdeparted.hasPath hpath)
    rw [heq]
    exact hdeparted.trans (confined_announce hhouses role _)

theorem confined_runJob (hr : r.census.Coherent) {job : Job} (hid : r.keyOf job.client = some key) :
    Confined key r (r.runJob job) := by
  cases job with
  | answer id =>
    obtain ⟨outcome, s, hs, heq⟩ := runJob_answer_cases r id
    have hanswered := confined_sendServerAuth hr hid
    rw [Job.client, hs] at hanswered
    rcases heq with heq | ⟨e, heq⟩
    · rw [heq]
      exact hanswered
    · rw [heq]
      exact hanswered.trans (confined_fail (hanswered.keyOf id hid) e)
  | deliver id =>
    have hdelivered : ∀ c, r.client? id = some c →
        Confined key r (r.setClient id c.deliverInbox.2) := fun c hc => by
      obtain ⟨d, hd, hkey⟩ := keyOf_eq_some.mp hid
      cases hc.symm.trans hd
      exact confined_setClient hid
        ((Client.initiatorKey_of_home (Client.home_deliverAll c.inbox c)).trans hkey)
    rcases runJob_deliver_cases r id with heq | ⟨c, hc, heq | ⟨e, heq⟩⟩
    · rw [heq]
      exact .refl key r
    · rw [heq]
      exact hdelivered c hc
    · rw [heq]
      exact (hdelivered c hc).trans (confined_fail ((hdelivered c hc).keyOf id hid) e)

/-! ## Actions -/

theorem confined_accept (key : PublicKey) (subprotocol : String) (draw : Draw) (r : Relay) :
    Confined key r (r.accept key subprotocol draw).2 := by
  have hpath := confined_pathFor key r
  have hclient := client?_accept r key subprotocol draw
  have hnone : r.client? ⟨r.clients.size⟩ = none := by simp [client?]
  have hkeys : ∀ id k, r.keyOf id = some k → (r.accept key subprotocol draw).2.keyOf id = some k := by
    intro id k hid
    have hne : (⟨r.clients.size⟩ : ClientId) ≠ id := by
      rintro rfl
      rw [keyOf, hnone] at hid
      cases hid
    rw [keyOf, hclient, if_neg hne]
    exact hid
  refine ⟨rfl, fun id c hc => ?_, hpath.path, hpath.live, fun other hother => ?_, fun id => hkeys id key,
    hpath.pathOf, fun _ hjob => .inl hjob⟩
  · rw [hclient]
    split
    · next heq =>
      subst heq
      rw [hnone]
      refine ⟨fun h => ?_, fun h => absurd h (by simp)⟩
      cases h
      exact absurd rfl hc
    · exact Iff.rfl
  · refine List.filter_congr fun job _ => ?_
    -- Whose key is another one was there before.
    rw [decide_eq_decide, keyOf, hclient]
    split
    · next heq =>
      rw [keyOf, ← heq, hnone]
      refine ⟨fun h => ?_, fun h => absurd h (by simp)⟩
      cases h
      exact absurd rfl hother
    · exact Iff.rfl

/-- The key that an action is about: that of the connection that is made, or of the client that is the
action's subject. -/
def keyOfAction (r : Relay) : Action → Option PublicKey
  | .accept key _ _ => some key
  | act => (r.subject? act).bind r.keyOf

/-- A job that is taken out is missing only among those of its key. -/
theorem confined_takeAt {place : Nat} {job : Job} {jobs : JobQueue Job}
    (h : r.jobs.takeAt place = some (job, jobs)) (hid : r.keyOf job.client = some key) :
    Confined key r { r with jobs := jobs } := by
  obtain ⟨pre, post, hpending, -, rfl⟩ := JobQueue.takeAt_eq_some.mp h
  refine { Confined.refl key r with jobs := fun other hother => ?_, news := fun job' hjob => .inl ?_ }
  · have hnot : ¬ r.keyOf job.client = some other := fun h' =>
      hother (Option.some.inj (h'.symm.trans hid))
    show (pre ++ post).filter _ = r.jobs.pending.filter _
    rw [hpending, List.filter_append, List.filter_append,
      List.filter_cons_of_neg (by simpa using hnot)]
    rfl
  · rw [hpending]
    rcases List.mem_append.mp hjob with hjob | hjob
    · exact List.mem_append_left _ hjob
    · exact List.mem_append_right _ (.tail _ hjob)

/-- **An action is confined to its key.** -/
theorem confined_perform (hr : r.census.Coherent) (h : r.keyOfAction act = some key) :
    Confined key r (r.perform act) := by
  cases act with
  | accept key' subprotocol draw =>
    cases h
    exact confined_accept key subprotocol draw r
  | greet id => exact confined_update h fun _ _ => Client.home_of_greet
  | receive id bytes => exact confined_received hr h bytes
  | unpack id bytes => exact confined_update h fun _ _ => Client.home_of_map_unpack
  | pack id destination m => exact confined_update h fun _ _ => Client.home_of_map_pack
  | send id m => exact confined_update h fun _ _ => Client.home_of_send
  | answer id => exact confined_sendServerAuth hr h
  | disconnect id => exact confined_disconnected hr h
  | runJob place =>
    obtain ⟨id, hsubject, hid⟩ := Option.bind_eq_some_iff.mp h
    obtain ⟨⟨job, jobs⟩, htaken, rfl⟩ := Option.map_eq_some_iff.mp hsubject
    have hr' : { r with jobs := jobs }.census.Coherent := hr
    have hperform : r.perform (.runJob place) = { r with jobs := jobs }.runJob job := by
      rw [perform, htaken]
    rw [hperform]
    exact (confined_takeAt htaken hid).trans (confined_runJob hr' hid)
  | fail id e => exact confined_fail h e
  | close id code => exact confined_close h code
  | collect id => exact confined_client h fun _ => rfl
  | hangUp id => exact confined_client h fun _ => rfl

end Relay

end Rendezvous
