import Rendezvous.Proofs.Relay.Announcements

/-!
# Whom an action is about

Most actions are about one client, and reach others only by what is left in their inboxes or told to
their writers. That happens to nobody who was not given an address: the relay finds others by their
addresses alone.

* **`Relay.subject?`** — the client that an action is about.
* **`touches_perform`** — an action changes its subject, and those who are authenticated; nobody is gone
  by it, unless it disconnects.
* **`spared_perform`** — a client that is not authenticated yet stays exactly as it is while things happen
  to others.
* **`gone_of_perform`** — who is gone after an action was gone before, or has been disconnected by it.
-/

namespace Rendezvous

/-- The client that a job is for. -/
def Job.client : Job → ClientId
  | .answer id => id
  | .deliver id => id

namespace Relay

/-- The client that an action is about. Nobody is meant by a job that does not exist, nor by a connection
that is only made. -/
def subject? (r : Relay) : Action → Option ClientId
  | .accept .. => none
  | .greet id | .receive id _ | .unpack id _ | .pack id _ _ | .send id _ | .answer id | .disconnect id
  | .fail id _ | .close id _ | .collect id | .hangUp id => some id
  | .runJob place => (r.jobs.takeAt place).map fun taken => taken.1.client

/-- A change of a client while something is done about a subject: the client does not go, and it is the
subject itself or authenticated. -/
def Touches (subject other : ClientId) (c c' : Client) : Prop :=
  c'.gone = c.gone ∧ (other = subject ∨ c.isAuthenticated = true)

variable {r s : Relay} {id other : ClientId} {c c' : Client} {act : Action}

/-! ## Those who are touched -/

theorem touches_modifyClient {f : Client → Client} (hgone : ∀ c, (f c).gone = c.gone)
    (h : ∀ c, r.client? other = some c → other = id ∨ c.isAuthenticated = true) :
    Changes (Touches id) r (r.modifyClient other f) :=
  changes_modifyClient fun c hc => .single ⟨hgone c, h c hc⟩

theorem touches_setClient (hc : r.client? id = some c) (hgone : c'.gone = c.gone) :
    Changes (Touches id) r (r.setClient id c') :=
  changes_setClient hc (.single ⟨hgone, .inl rfl⟩)

theorem touches_update {f : Client → Except ProtocolError Client}
    (h : ∀ c c', f c = .ok c' → c'.gone = c.gone) : Changes (Touches id) r (r.update id f).2 :=
  changes_update fun c c' hf => .single ⟨h c c' hf, .inl rfl⟩

theorem touches_count (r : Relay) (f : Metrics → Metrics) : Changes (Touches id) r (r.count f) :=
  .of_clients rfl

theorem touches_close (code : CloseCode)
    (h : ∀ c, r.client? other = some c → other = id ∨ c.isAuthenticated = true) :
    Changes (Touches id) r (r.close other code) :=
  touches_modifyClient (fun _ => rfl) h

theorem touches_fail (r : Relay) (id : ClientId) (e : ProtocolError) :
    Changes (Touches id) r (r.fail id e) := by
  unfold fail
  dsimp only
  split
  · exact (touches_count r _).trans (touches_close _ fun _ _ => .inl rfl)
  · exact touches_close _ fun _ _ => .inl rfl

/-- Whoever is seated is authenticated, in whatever way the clients are looked at. -/
theorem IsSeated.authenticated (h : r.IsSeated other) (hc : r.client? other = some c) :
    c.isAuthenticated = true := by
  obtain ⟨d, hd, hauth⟩ := h.client
  cases hc.symm.trans hd
  exact hauth

theorem touches_notifyAll {ids : List ClientId} (h : ∀ other ∈ ids, r.IsSeated other) (m : Message) :
    Changes (Touches id) r (r.notifyAll ids m) := by
  induction ids generalizing r with
  | nil => exact .refl r
  | cons first rest ih =>
    have hfirst : Changes (Touches id) r (r.notify first m) := by
      have hinbox : Changes (Touches id) r
          (r.modifyClient first fun c => { c with inbox := c.inbox ++ [.notice m] }) :=
        touches_modifyClient (fun _ => rfl) fun c hc => .inr ((h first (.head rest)).authenticated hc)
      exact hinbox.trans (.of_clients rfl)
    refine hfirst.trans (ih fun other hother => ?_)
    -- A notice changes nobody's standing.
    rw [IsSeated, census_notify]
    exact h other (.tail first hother)

theorem touches_announce (hr : r.census.Coherent) (path : PathId) (role : Role) (m : Message) :
    Changes (Touches id) r (r.announce path role m) := by
  rw [announce_eq]
  refine touches_notifyAll (fun other hother => ?_) m
  obtain ⟨a, hget, -⟩ := mem_audience.mp hother
  exact isSeated_of_get hr hget

theorem touches_displace {displaced : Option ClientId} (h : ∀ other ∈ displaced, r.IsSeated other) :
    Changes (Touches id) r (r.displace id displaced) := by
  unfold displace
  split
  · next other =>
    split
    · exact .refl r
    · exact touches_close _ fun c hc => .inr ((h other rfl).authenticated hc)
  · exact .refl r

/-! ## Handlers -/

/-- Being seated goes on while other clients are seated. -/
theorem isSeated_setClient (h : r.IsSeated other) (hauth : c.isAuthenticated = true) :
    (r.setClient id c).IsSeated other := by
  obtain ⟨d, hd, hdauth⟩ := h.client
  refine ⟨_, census_client? (c := if id = other then c else d) ?_, ?_⟩
  · rw [client?_setClient, hd]
    split <;> rfl
  · split
    · exact hauth
    · exact hdauth

theorem touches_settled {path : PathId} {a : Admission} {s : Seat} {frame : Bytes}
    (hc : r.client? id = some c) (hgone : c'.gone = c.gone)
    (hsettled : (r.settled path id c' a s frame).census.Coherent)
    (hdisplaced : ∀ other ∈ s.displaced, r.IsSeated other) :
    Changes (Touches id) r (r.settled path id c' a s frame) := by
  obtain ⟨outbox, hseated⟩ := seated_eq c' a s.address frame
  have hset : Changes (Touches id) r (r.setClient id (seated c' a s.address frame)) := by
    refine touches_setClient hc ?_
    rw [hseated]
    exact hgone
  -- Being seated is the last that changes anybody's standing.
  have hcoherent : (r.setClient id (seated c' a s.address frame)).census.Coherent := by
    rw [census_settled] at hsettled
    rw [census_setClient, Client.standing_seated]
    exact hsettled
  have htold := hset.trans (touches_announce hcoherent path a.role (joined a.role s.address))
  have hcounted := htold.trans
    (touches_count _ fun m => { m with authenticated := m.authenticated + 1 })
  refine hcounted.trans (touches_displace fun other hother => ?_)
  rw [IsSeated, census_count, census_announce]
  refine isSeated_setClient (hdisplaced other hother) ?_
  rw [hseated]
  rfl

theorem touches_answer {a : Admission} (hr : r.census.Coherent) (hc : r.client? id = some c)
    (hgone : c.gone = false) (hphase : c.phase = .admitted a) (cookie : Cookie) :
    Changes (Touches id) r (r.answer id c a cookie).2 := by
  have hlive : Changes (Touches id) r (r.onLivePath id c) := by
    have hc' : (r.livePath c).2.client? id = some c := by
      rw [client?, clients_livePath]
      exact hc
    exact (Changes.of_clients (clients_livePath r c)).trans (touches_setClient hc' rfl)
  have hcoherent := (moves_answer hc hgone hphase cookie).coherent hr
  have honPath := (moves_onLivePath hc hgone hphase).1.coherent hr
  rcases answer_cases r id c a cookie with ⟨e, -, heq⟩ | ⟨s, r', e, hseat, -, heq⟩ |
    ⟨s, r', frame, c', hseat, hpack, heq⟩
  · rw [heq]
    exact hlive
  · obtain ⟨slots, rfl, -⟩ := seat_eq_ok hseat
    rw [heq]
    exact hlive.trans (.of_clients rfl)
  · obtain ⟨slots, rfl, -, hdisplaced, -⟩ := seat_eq_ok hseat
    rw [heq] at hcoherent ⊢
    have hslots : Changes (Touches id) (r.onLivePath id c)
        ((r.onLivePath id c).setSlots (r.livePath c).1 slots) := .of_clients rfl
    obtain ⟨next, -, rfl⟩ := Client.eq_of_pack hpack
    refine (hlive.trans hslots).trans
      (touches_settled (client?_onLivePath hc) rfl hcoherent fun other hother => ?_)
    -- Whoever is displaced had an address before.
    rw [hdisplaced] at hother
    have hseated : (r.onLivePath id c).IsSeated other := isSeated_of_get honPath hother
    exact hseated

theorem touches_sendServerAuth (hr : r.census.Coherent) (id : ClientId) :
    Changes (Touches id) r (r.sendServerAuth id).2 := by
  rcases sendServerAuth_cases r id with ⟨outcome, heq⟩ | ⟨c, a, e, hc, hgone, hphase, -, heq⟩
  · rw [heq]
    exact .refl r
  · rw [heq]
    exact touches_answer hr hc hgone hphase e.cookie

theorem touches_refuse (r : Relay) (id : ClientId) (h : Header) :
    Changes (Touches id) r (r.refuse id h).2 := by
  rcases refuse_cases r id h with ⟨f, -, heq⟩ | ⟨c, e, -, -, heq⟩ | ⟨c, reply, c', f, hc, hpack, heq⟩
  · rw [heq]
    exact .of_clients rfl
  · rw [heq]
    exact .refl r
  · obtain ⟨next, -, rfl⟩ := Client.eq_of_pack hpack
    rw [heq]
    have hreplied : Changes (Touches id) r
        (r.setClient id ({ c with nextNumber := next }.push (.binary reply))) :=
      touches_setClient hc rfl
    exact hreplied.trans (touches_count _ f)

theorem touches_handleRaw (hr : r.census.Coherent) (id : ClientId) (c : Client) (h : Header)
    (frame : Bytes) : Changes (Touches id) r (r.handleRaw id c h frame).2 := by
  have hpassed : Changes (Touches id) r (r.passOn c.path h frame).2 := by
    unfold passOn
    split
    · next peer hpeer =>
      have hseated := isSeated_of_get hr hpeer
      unfold forward
      split
      · exact .refl r
      · next d hd =>
        refine changes_setClient hd (.single ⟨?_, .inr (hseated.authenticated hd)⟩)
        split <;> rfl
    · exact .refl r
  unfold handleRaw
  split
  · split
    · next s hs =>
      rw [hs] at hpassed
      dsimp only at hpassed ⊢
      exact hpassed.trans (touches_count s _)
    · next s hs =>
      rw [hs] at hpassed
      exact hpassed.trans (touches_refuse s id h)
  · exact .refl r

theorem touches_handleDropResponder (hr : r.census.Coherent) (c : Client) (responder : Address)
    (reason : Option CloseCode) :
    Changes (Touches id) r (r.handleDropResponder c responder reason).2 := by
  have hslots : Changes (Touches id) r (r.setSlots c.path ((r.slots c.path).del responder).2) :=
    .of_clients rfl
  rcases handleDropResponder_cases r c responder reason with ⟨-, heq⟩ | ⟨-, -, -, heq⟩ |
    ⟨other, f, -, -, hget, heq⟩
  · rw [heq]
    exact .refl r
  · rw [heq]
    exact hslots
  · rw [heq]
    have hseated := isSeated_of_get hr hget
    refine (hslots.trans (touches_close _ fun d hd => ?_)).trans (touches_count _ f)
    exact .inr (hseated.authenticated hd)

theorem touches_handle (hr : r.census.Coherent) (id : ClientId) (c : Client) (m : Message) :
    Changes (Touches id) r (r.handle id c m).2 := by
  cases m with
  | clientHello key =>
    refine touches_update fun c c' hok => ?_
    obtain ⟨-, rfl⟩ := Client.introduce_eq_ok.mp hok
    rfl
  | clientAuth auth =>
    have hupdate : Changes (Touches id) r (r.update id fun c => c.authorize r.service auth).2 := by
      refine touches_update fun c c' hok => ?_
      obtain ⟨-, -, -, -, -, -, -, rfl⟩ := Client.authorize_eq_ok.mp hok
      rfl
    obtain ⟨outcome, s, hs, heq⟩ := handleClientAuth_cases r id auth
    rw [hs] at hupdate
    show Changes (Touches id) r (r.handleClientAuth id auth).2
    rcases heq with heq | heq
    · rw [heq]
      exact hupdate
    · rw [heq]
      exact hupdate.trans (.of_clients rfl)
  | dropResponder responder reason => exact touches_handleDropResponder hr c responder reason
  | raw h frame => exact touches_handleRaw hr id c h frame
  | _ => exact .refl r

theorem gone_of_unpack {bytes : Bytes} {m : Message} (h : c.unpack bytes = .ok (m, c')) :
    c'.gone = c.gone := by
  rcases Client.unpack_cases h with ⟨-, rfl⟩ | ⟨f, next, -, -, rfl⟩ <;> rfl

theorem touches_received (hr : r.census.Coherent) (id : ClientId) (bytes : Bytes) :
    Changes (Touches id) r (r.received id bytes).2 := by
  have hcoherent := coherent_hear hr id bytes
  unfold received
  unfold hear update at hcoherent
  cases hc : r.client? id with
  | none => exact .refl r
  | some c =>
    rw [hc] at hcoherent
    dsimp only at hcoherent ⊢
    cases hu : c.unpack bytes with
    | error e => exact .refl r
    | ok result =>
      obtain ⟨m, c'⟩ := result
      rw [hu] at hcoherent
      exact (touches_setClient hc (gone_of_unpack hu)).trans (touches_handle hcoherent id c' m)

theorem gone_deliverAll (deliveries : List Delivery) (c : Client) :
    (c.deliverAll deliveries).2.gone = c.gone := by
  have hgone := congrArg Client.gone (Client.standing_deliverAll deliveries c)
  exact hgone

theorem touches_runJob (hr : r.census.Coherent) (job : Job) :
    Changes (Touches job.client) r (r.runJob job) := by
  cases job with
  | answer id =>
    obtain ⟨outcome, s, hs, heq⟩ := runJob_answer_cases r id
    have hanswered := touches_sendServerAuth hr id
    rw [hs] at hanswered
    rcases heq with heq | ⟨e, heq⟩
    · rw [heq]
      exact hanswered
    · rw [heq]
      exact hanswered.trans (touches_fail s id e)
  | deliver id =>
    have hdelivered : ∀ c, r.client? id = some c →
        Changes (Touches id) r (r.setClient id c.deliverInbox.2) := fun c hc =>
      touches_setClient hc (gone_deliverAll c.inbox c)
    rcases runJob_deliver_cases r id with heq | ⟨c, hc, heq | ⟨e, heq⟩⟩
    · rw [heq]
      exact .refl r
    · rw [heq]
      exact hdelivered c hc
    · rw [heq]
      exact (hdelivered c hc).trans (touches_fail _ id e)

/-! ## Actions -/

/-- **Whom an action touches.** Disconnecting apart, with which its subject goes. -/
theorem touches_perform (hr : r.census.Coherent) (h : r.subject? act = some id)
    (hact : act ≠ .disconnect id) : Changes (Touches id) r (r.perform act) := by
  cases act with
  | accept => cases h
  | greet =>
    cases h
    refine touches_update fun c c' hok => ?_
    obtain ⟨-, frame, c₁, hpack, rfl⟩ := Client.greet_eq_ok.mp hok
    obtain ⟨next, -, rfl⟩ := Client.eq_of_pack hpack
    rfl
  | receive _ bytes =>
    cases h
    exact touches_received hr id bytes
  | unpack =>
    cases h
    refine touches_update fun c c' hok => ?_
    obtain ⟨⟨m, c''⟩, hu, rfl⟩ := map_eq_ok.mp hok
    exact gone_of_unpack hu
  | pack =>
    cases h
    refine touches_update fun c c' hok => ?_
    obtain ⟨⟨frame, c''⟩, hpack, rfl⟩ := map_eq_ok.mp hok
    obtain ⟨next, -, rfl⟩ := Client.eq_of_pack hpack
    rfl
  | send =>
    cases h
    refine touches_update fun c c' hok => ?_
    obtain ⟨-, frame, c₁, hpack, rfl⟩ := Client.send_eq_ok.mp hok
    obtain ⟨next, -, rfl⟩ := Client.eq_of_pack hpack
    rfl
  | answer =>
    cases h
    exact touches_sendServerAuth hr id
  | disconnect =>
    cases h
    exact absurd rfl hact
  | runJob place =>
    obtain ⟨⟨job, jobs⟩, htaken, rfl⟩ := Option.map_eq_some_iff.mp h
    have hr' : { r with jobs := jobs }.census.Coherent := hr
    have hperform : r.perform (.runJob place) = { r with jobs := jobs }.runJob job := by
      rw [perform, htaken]
    have hjobs : Changes (Touches job.client) r { r with jobs := jobs } := .of_clients rfl
    rw [hperform]
    exact hjobs.trans (touches_runJob hr' job)
  | fail _ e =>
    cases h
    exact touches_fail r id e
  | close _ code =>
    cases h
    exact touches_close code fun _ _ => .inl rfl
  | collect | hangUp =>
    cases h
    exact touches_modifyClient (fun _ => rfl) fun _ _ => .inl rfl

/-- Nothing happens about nobody, unless somebody comes. -/
theorem perform_of_subject?_eq_none (h : r.subject? act = none) :
    r.perform act = r ∨ ∃ key subprotocol draw, act = .accept key subprotocol draw := by
  cases act with
  | accept key subprotocol draw => exact .inr ⟨key, subprotocol, draw, rfl⟩
  | runJob place =>
    have htaken : r.jobs.takeAt place = none := Option.map_eq_none_iff.mp h
    exact .inl (by rw [perform, htaken])
  | _ => cases h

/-- What changes about a client that is not authenticated is its own doing. -/
theorem Changes.spares (h : Changes (Touches id) r s) (hne : id ≠ other)
    (hc : r.client? other = some c) (hauth : c.isAuthenticated = false) :
    s.client? other = some c := by
  obtain ⟨c', hc', hchanges⟩ := h.client other c hc
  rcases hchanges.cases_head with rfl | ⟨d, ⟨-, htouched⟩, -⟩
  · exact hc'
  · rcases htouched with rfl | htrue
    · exact absurd rfl hne
    · cases htrue.symm.trans hauth

/-- **Bystanders.** A client that is not authenticated stays as it is while actions are about others. -/
theorem spared_perform (hr : r.census.Coherent) (h : r.subject? act ≠ some id)
    (hc : r.client? id = some c) (hauth : c.isAuthenticated = false) :
    (r.perform act).client? id = some c := by
  cases hsubject : r.subject? act with
  | none =>
    rcases perform_of_subject?_eq_none hsubject with heq | ⟨key, subprotocol, draw, rfl⟩
    · rw [heq]
      exact hc
    · have hne : (⟨r.clients.size⟩ : ClientId) ≠ id := by
        rintro rfl
        simp [client?] at hc
      rw [perform, client?_accept, if_neg hne]
      exact hc
  | some subject =>
    have hne : subject ≠ id := fun heq => h (heq ▸ hsubject)
    by_cases hact : act = .disconnect subject
    · subst hact
      -- The one who departs is another one, and those who are told have addresses.
      have hdeparted : ∀ d, (r.departed subject d).client? id = some c := fun d => by
        rw [client?_departed, if_neg hne]
        exact hc
      rcases disconnected_cases r subject with ⟨-, heq⟩ | ⟨d, outcome, -, -, heq⟩ |
        ⟨d, role, outcome, hd, -, -, -, heq⟩
      · rw [perform, heq]
        exact hc
      · rw [perform, heq]
        exact hdeparted d
      · have hcoherent := (moves_departed hd).coherent hr
        rw [perform, heq]
        exact (touches_announce hcoherent d.path role (.disconnected d.id)).spares hne
          (hdeparted d) hauth
    · exact (touches_perform hr hsubject hact).spares hne hc hauth

theorem Changes.gone (h : Changes (Touches id) r s) (hgone : s.Gone other) : r.Gone other := by
  obtain ⟨c', hc', hgone⟩ := hgone
  cases hc : r.client? other with
  | none => cases hc'.symm.trans (h.none other hc)
  | some c =>
    obtain ⟨d, hd, hchanges⟩ := h.client other c hc
    cases hc'.symm.trans hd
    have hsame : ∀ c', Relation.ReflTransGen (Touches id other) c c' → c'.gone = c.gone := by
      intro c' hchanges
      induction hchanges with
      | refl => rfl
      | tail _ step ih => exact step.1.trans ih
    exact ⟨c, hc, (hsame c' hchanges).symm.trans hgone⟩

/-- **Nobody is gone but who was disconnected.** -/
theorem gone_of_perform (hr : r.census.Coherent) (h : (r.perform act).Gone id) :
    r.Gone id ∨ act = .disconnect id := by
  cases hsubject : r.subject? act with
  | none =>
    rcases perform_of_subject?_eq_none hsubject with heq | ⟨key, subprotocol, draw, rfl⟩
    · rw [heq] at h
      exact .inl h
    · obtain ⟨c, hc, hgone⟩ := h
      rw [perform, client?_accept] at hc
      split at hc
      · cases hc
        cases hgone
      · exact .inl ⟨c, hc, hgone⟩
  | some subject =>
    by_cases hact : act = .disconnect subject
    · subst hact
      by_cases heq : subject = id
      · exact .inr (by rw [heq])
      · -- The one who departs is another one, and by being told nobody goes.
        have hdeparted : ∀ d, (r.departed subject d).Gone id → r.Gone id := by
          rintro d ⟨c, hc, hgone⟩
          rw [client?_departed, if_neg heq] at hc
          exact ⟨c, hc, hgone⟩
        rw [perform] at h
        rcases disconnected_cases r subject with ⟨-, heq⟩ | ⟨d, outcome, -, -, heq⟩ |
          ⟨d, role, outcome, hd, -, -, -, heq⟩
        · rw [heq] at h
          exact .inl h
        · rw [heq] at h
          exact .inl (hdeparted d h)
        · have hcoherent := (moves_departed hd).coherent hr
          have htold : Changes (Touches id) (r.departed subject d)
              ((r.departed subject d).announce d.path role (.disconnected d.id)) :=
            touches_announce hcoherent ..
          rw [heq] at h
          exact .inl (hdeparted d (htold.gone h))
    · exact .inl ((touches_perform hr hsubject hact).gone h)

end Relay

end Rendezvous
