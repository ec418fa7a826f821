import Rendezvous.Proofs.Relay.Pruning
import Rendezvous.Proofs.Relay.Views

/-!
# Nobody loses an address unnoticed

An address is freed or given to somebody else in four places, and who had it is told elsewhere, or not at
all: a departure tells nobody who departs, and an initiator that cannot be answered has displaced the one
before in vain. This module shows that all the same whoever was seated, and has not departed, still has
the address, or was told to close, with the code that says why.

The argument goes over the turns. A turn takes an address away by a departure, by a drop, by a new
initiator, or by an answer that cannot be packed; and the last of these does not occur, since who is
admitted has been sent one frame at most.

* **`Relay.Loses`** — in what ways a client can lose its address by an action.
* **`loses_of_get_ne`** — there are no others.
* **`Evicted`** — why a client that was seated has no address any more, with the code to close with.
* **`evicted_run`** — what follows for runs, in which nothing is packed from outside.
-/

namespace Rendezvous

/-- What happens to a relay on its own: no frame is packed from outside, no writer goes away, and the
server's numbers have not wrapped when they are drawn. -/
def Action.isOrdinary : Action → Bool
  | .accept _ _ draw => draw.number.overflow == 0
  | .pack .. | .send .. | .hangUp _ => false
  | _ => true

/-! ## What is in a client's channel -/

section Channel

variable {service : Service} {history : List Event} {c c' : Client} {es : List Event}

/-- What was sent stays sent. -/
theorem Ledger.sent_note (l : Ledger) (e : Event) : l.sent <+: (l.note e).sent := by
  cases e with
  | relayed sender frame =>
    cases hwaiting : l.waiting with
    | nil =>
      rw [Ledger.note_relayed_of_nil hwaiting]
      exact List.prefix_append ..
    | cons first rest =>
      rw [Ledger.note_relayed_of_ne (by simp [hwaiting])]
      exact List.prefix_refl _
  | served _ frame | released frame =>
    unfold note pop
    dsimp only
    split
    · exact List.prefix_refl _
    · exact List.prefix_append ..
  | told | opened | accepted | introduced | admitted | dropped | packed | collected | hungUp =>
    exact List.prefix_refl _
  | _ => exact List.prefix_append ..

/-- What the writer is told is sent to it. -/
theorem sent_of_ordered {item : Outbound} (h : .ordered item ∈ history) :
    .order item ∈ (ledger history).sent := by
  induction history using List.reverseRecOn with
  | nil => cases h
  | append_singleton history e ih =>
    rw [ledger_concat]
    rcases List.mem_append.mp h with hbefore | hlast
    · exact (Ledger.sent_note _ e).subset (ih hbefore)
    · cases List.mem_singleton.mp hlast
      exact List.mem_append_right _ (.head _)

/-- A client has a writer as long as none went away. -/
def Client.Attended (c : Client) (history : List Event) : Prop :=
  (∀ items, .hungUp items ∉ history) → c.outbox.isOpen = true

theorem Client.Attended.step (h : c.Attended history) (hstep : Client.Step service c es c') :
    c'.Attended (history ++ es) := by
  intro hhung
  replace h := h fun items hmem => hhung items (List.mem_append_left _ hmem)
  cases hstep with
  | introduce hok =>
    obtain ⟨-, rfl⟩ := introduce_eq_ok.mp hok
    exact h
  | authorize hok =>
    obtain ⟨-, -, -, -, -, -, -, rfl⟩ := authorize_eq_ok.mp hok
    exact h
  | greet _ hpack | refuse _ hpack =>
    obtain ⟨next, -, rfl⟩ := eq_of_pack hpack
    exact (Outbox.isOpen_push ..).trans h
  | pack hpack =>
    obtain ⟨next, -, rfl⟩ := eq_of_pack hpack
    exact h
  | @answer a address auth seats frame c₁ _ hpack =>
    obtain ⟨next, -, rfl⟩ := eq_of_pack hpack
    unfold Relay.seated
    dsimp only
    split
    · exact (Outbox.isOpen_push ..).trans h
    · exact (Outbox.isOpen_push ..).trans ((Outbox.isOpen_push ..).trans h)
  | post hsending | serve _ hsending =>
    obtain ⟨next, -, rfl⟩ := eq_of_pack (sending_eq_ok.mp hsending).2
    exact (Outbox.isOpen_push ..).trans h
  | order | pass | release | cut => exact (Outbox.isOpen_push ..).trans h
  | hangUp => exact absurd (List.mem_append_right _ (.head _)) (hhung _)
  | _ => exact h

end Channel

namespace Relay

variable {r s : Relay} {id who : ClientId} {c c' : Client} {act : Action} {path : PathId} {a : Address}

/-- What was put into a client's channel: what its writer has taken, and what waits there. -/
def channel (service : Service) (actions : List Action) (id : ClientId) : List Outbound :=
  ((new service).history actions id).flatMap Event.taken ++
    (((new service).run actions).client? id).elim [] fun c => c.outbox.items

/-- As long as there is a writer, all that was sent is in the channel. -/
theorem channel_eq_sent {service : Service} {actions : List Action}
    (hc : ((new service).run actions).client? id = some c) (hopen : c.outbox.isOpen = true) :
    channel service actions id = (ledger ((new service).history actions id)).sent.map Entry.item := by
  rw [← ((booked_run service actions id).1 c hc).outbox.eq_of_isOpen hopen, channel, hc]
  rfl

/-- What the writer was told is in the channel, as long as there is a writer. -/
theorem mem_channel_of_ordered {service : Service} {actions : List Action} {item : Outbound}
    (hhung : .hangUp id ∉ actions) (hc : ((new service).run actions).client? id = some c)
    (h : .ordered item ∈ (new service).history actions id) : item ∈ channel service actions id := by
  have hopen : c.outbox.isOpen = true := by
    refine (history_induction (P := Client.Attended) (fun _ _ _ _ _ _ => rfl)
      (fun _ _ _ _ hstep h => h.step hstep) actions id).1 c hc fun items hmem => ?_
    obtain ⟨act, hact, hfrom⟩ := from_of_history hmem
    replace hfrom : act = .hangUp id := hfrom
    exact hhung (hfrom ▸ hact)
  rw [channel_eq_sent hc hopen]
  exact List.mem_map.mpr ⟨_, sent_of_ordered h, rfl⟩

/-! ## How an address is lost -/

/-- The ways in which a client can lose its address by an action, each with what its writer is told. -/
inductive Loses (r : Relay) (act : Action) (path : PathId) (a : Address) (who : ClientId) : Prop where
  | departs (hact : act = .disconnect who)
  /-- Another initiator takes the address. -/
  | supplanted {other : ClientId} (ha : a = .initiator) (hne : other ≠ who)
      (htaken : ((r.perform act).slots path).get a = some other)
      (hrecord : (who, .ordered (.close .dropByInitiator)) ∈ r.record act)
  /-- An initiator has the responder dropped. -/
  | dropped {initiator : ClientId} {bytes : Bytes} {c c' : Client} {reason : Option CloseCode}
      (hact : act = .receive initiator bytes) (hc : r.client? initiator = some c)
      (hauth : c.isAuthenticated = true) (hrole : c.role? = some .initiator) (hpath : c.path = path)
      (hread : c.unpack bytes = .ok (.dropResponder a reason, c'))
      (hrecord : (who, .ordered (.close (reason.getD .dropByInitiator))) ∈ r.record act)

/-- The answer to an admitted client takes an address from nobody but the initiator before, who is told
to close. -/
theorem supplanted_sendServerAuth (hr : r.census.Coherent)
    (hpacked : ∀ c a path destination m, r.client? id = some c → c.phase = .admitted a →
      ∃ packed, { c with path := path }.pack destination m = .ok packed)
    (hget : (r.slots path).get a = some who)
    (hlost : ((r.sendServerAuth id).2.slots path).get a ≠ some who) :
    a = .initiator ∧ id ≠ who ∧ ((r.sendServerAuth id).2.slots path).get a = some id ∧
      (who, .ordered (.close .dropByInitiator)) ∈ r.recordServerAuth id := by
  rcases recordServerAuth_cases r id with ⟨outcome, -, heq, -⟩ |
    ⟨c, admission, e, hc, hgone, hphase, -, hrecord, heq⟩
  · rw [heq] at hlost
    exact absurd hget hlost
  have hlive := sameSlots_onLivePath r id c
  rw [hrecord]
  rw [heq] at hlost ⊢
  rcases recordAnswer_cases r id c admission e.cookie with ⟨_, -, -, heq⟩ | ⟨s, r', _, -, hpack, -, -⟩ |
    ⟨s, r', frame, c', hseat, -, hrecord, heq⟩
  · rw [heq, hlive] at hlost
    exact absurd hget hlost
  · obtain ⟨packed, hok⟩ := hpacked c admission (r.livePath c).1 s.address
      (.serverAuth ⟨e.cookie, r'.otherSide (r.livePath c).1 admission.role⟩) hc hphase
    cases hok.symm.trans hpack
  · obtain ⟨slots, rfl, hkind, hdisplaced, hfree, hslots⟩ := seat_eq_ok hseat
    have hseated := get_seated hlive (path?_onLivePath hr hc hgone hphase) hslots
    rw [heq, slots_of_registry (registry_settled ..), hseated] at hlost ⊢
    split at hlost
    · next hat =>
      -- It is the very address at which the client is seated.
      obtain ⟨rfl, rfl⟩ := hat
      rw [hlive, hget] at hdisplaced
      have hne : id ≠ who := fun heq => hlost (by rw [heq])
      have hinitiator : admission.role = .initiator := by
        cases hrole : admission.role with
        | initiator => rfl
        | responder =>
          have hnone := hfree hrole
          rw [hlive, hget] at hnone
          cases hnone
      rw [hinitiator] at hkind
      refine ⟨Address.eq_initiator hkind, hne, if_pos ⟨rfl, rfl⟩, ?_⟩
      rw [hrecord]
      refine List.mem_append_right _ ?_
      rw [hdisplaced, recordDisplacement, if_neg (Ne.symm hne)]
      exact .head _
    · exact absurd hget hlost

/-- Whoever has the address of a responder that is dropped is told to close. -/
theorem record_of_dropResponder {bytes : Bytes} {reason : Option CloseCode}
    (hc : r.client? id = some c) (hauth : c.isAuthenticated = true)
    (hrole : c.role? = some .initiator)
    (hread : c.unpack bytes = .ok (.dropResponder a reason, c'))
    (hget : (r.slots c.path).get a = some who) :
    (who, .ordered (.close (reason.getD .dropByInitiator))) ∈ r.record (.receive id bytes) := by
  obtain ⟨hphase, hpath⟩ := Client.unpack_phase hread
  have hdropped : r.recordFrame id bytes = r.recordAcceptance id bytes ++
      (r.setClient id c').recordDrop id c' a reason := by
    unfold recordFrame
    rw [hc]
    dsimp only
    rw [hread]
    rfl
  have hinitiator : (c'.isAuthenticated && c'.role? == some .initiator) = true := by
    rw [Client.isAuthenticated, Client.role?, hphase]
    rw [Client.isAuthenticated] at hauth
    rw [Client.role?] at hrole
    rw [hauth, hrole]
    rfl
  replace hget : ((r.setClient id c').slots c'.path).get a = some who := by
    rw [hpath]
    exact hget
  show _ ∈ r.recordFrame id bytes
  rw [hdropped, recordDrop, if_pos hinitiator, hget]
  exact List.mem_append_right _ (.tail _ (.head _))

/-- **How an address is lost.** By a departure, to a new initiator, or by a drop. -/
theorem loses_of_get_ne (hr : r.census.Coherent)
    (hpacked : ∀ id c a path destination m, r.client? id = some c → c.phase = .admitted a →
      ∃ packed, { c with path := path }.pack destination m = .ok packed)
    (hget : (r.slots path).get a = some who)
    (hlost : ((r.perform act).slots path).get a ≠ some who) : r.Loses act path a who := by
  have hanswered : ∀ jobs id,
      ({ r with jobs := jobs }.sendServerAuth id).2.registry = (r.perform act).registry →
      (∀ entry ∈ { r with jobs := jobs }.recordServerAuth id, entry ∈ r.record act) →
      r.Loses act path a who := by
    intro jobs id hregistry hrecord
    rw [slots_of_registry hregistry.symm] at hlost
    obtain ⟨ha, hne, htaken, hmem⟩ :=
      supplanted_sendServerAuth (r := { r with jobs := jobs }) hr (hpacked id) hget hlost
    refine .supplanted ha hne ?_ (hrecord _ hmem)
    rw [slots_of_registry hregistry.symm]
    exact htaken
  have hturn := turn_perform hr act
  generalize (r.record act).news = news at hturn
  generalize hs : r.perform act = s at hlost hturn
  cases hturn with
  | quiet h | introduce _ _ _ _ h | authorize _ _ _ _ h | relay _ _ h =>
    rw [h] at hlost
    exact absurd hget hlost
  | release hc hphase hpack =>
    obtain ⟨packed, hok⟩ := hpacked _ _ _ _ .initiator _ hc hphase
    cases hok.symm.trans hpack
  | @drop id bytes c c' responder reason _ hact hc hu hauth hrole h =>
    rw [h] at hlost
    split at hlost
    · next hat =>
      obtain ⟨rfl, rfl⟩ := hat
      subst hact
      exact .dropped rfl hc hauth hrole rfl hu (record_of_dropResponder hc hauth hrole hu hget)
    · exact absurd hget hlost
  | @leave id c role _ hact hc hauth hslot hrole h =>
    rw [h] at hlost
    split at hlost
    · next hat =>
      obtain ⟨rfl, rfl⟩ := hat
      cases hget.symm.trans hslot
      exact .departs hact
    · exact absurd hget hlost
  | @seat id c admission path' address auth frame _ hact =>
    rcases hact with rfl | ⟨place, rfl⟩
    · exact hanswered r.jobs id rfl fun _ hmem => hmem
    · rw [← hs] at hlost
      cases htaken : r.jobs.takeAt place with
      | none =>
        have hsame : r.perform (.runJob place) = r := by rw [perform, htaken]
        rw [hsame] at hlost
        exact absurd hget hlost
      | some taken =>
        obtain ⟨job, jobs⟩ := taken
        have hperform : r.perform (.runJob place) = { r with jobs := jobs }.runJob job := by
          rw [perform, htaken]
        cases job with
        | deliver other =>
          rw [hperform, slots_of_registry (registry_runJob_deliver ..)] at hlost
          exact absurd hget hlost
        | answer other =>
          refine hanswered jobs other ?_ fun entry hmem => ?_
          · obtain ⟨outcome, s', hs', heq⟩ := runJob_answer_cases { r with jobs := jobs } other
            rw [hperform, hs']
            rcases heq with heq | ⟨e, heq⟩
            · rw [heq]
            · rw [heq, registry_fail]
          · have hrecord : r.record (.runJob place) =
                { r with jobs := jobs }.recordJob (.answer other) := by simp only [record, htaken]
            rw [hrecord]
            exact List.mem_append_left _ hmem

/-! ## Who is seated -/

end Relay

namespace Census

variable {s t : Census} {id : ClientId} {c : Client}

/-- A client that was seated stays on its path, as what it is. -/
theorem Move.seated (m : Move s t) (hc : s.client? id = some c) (hauth : c.isAuthenticated = true) :
    ∃ c', t.client? id = some c' ∧ c'.path = c.path ∧ c'.phase = c.phase := by
  have hset : ∀ {u : Census} {other d d'}, u.client? other = some d → u.client? id = some c →
      (d.isAuthenticated = true → d'.path = d.path ∧ d'.phase = d.phase) →
      ∃ c', (u.setClient other d').client? id = some c' ∧ c'.path = c.path ∧ c'.phase = c.phase := by
    intro u other d d' hd hc hkept
    by_cases heq : other = id
    · subst heq
      cases hd.symm.trans hc
      exact ⟨d', client?_setClient_self hd, hkept hauth⟩
    · exact ⟨c, (client?_setClient_ne u d' heq).trans hc, rfl, rfl⟩
  have hadmitted : ∀ {d : Client} {a : Admission}, d.phase = .admitted a →
      ¬ d.isAuthenticated = true := by
    intro d a hphase htrue
    rw [Client.isAuthenticated, hphase] at htrue
    cases htrue
  cases m with
  | @join other d hnew _ _ _ =>
    have hne : other ≠ id := by
      rintro rfl
      cases hnew.symm.trans hc
    exact ⟨c, (if_neg hne).trans hc, rfl, rfl⟩
  | advance hd hadvances =>
    exact hset hd hc fun htrue => absurd (hadvances.isAuthenticated.1.symm.trans htrue) (by decide)
  | @rehome other d a p hd hphase _ _ _ =>
    exact hset (u := { s with registry := (s.registry.getOrCreate d.initiatorKey).2 }) hd hc
      fun htrue => absurd htrue (hadmitted hphase)
  | @seat other d a address slots hd hphase _ _ _ _ =>
    exact hset (u := s.setSlots d.path slots) hd hc fun htrue => absurd htrue (hadmitted hphase)
  | release _ => exact ⟨c, hc, rfl, rfl⟩
  | leave hd _ => exact hset hd hc fun _ => ⟨rfl, rfl⟩
  | prune _ => exact ⟨c, hc, rfl, rfl⟩

theorem Moves.seated (m : Moves s t) (hc : s.client? id = some c) (hauth : c.isAuthenticated = true) :
    ∃ c', t.client? id = some c' ∧ c'.path = c.path ∧ c'.phase = c.phase := by
  induction m with
  | refl => exact ⟨c, hc, rfl, rfl⟩
  | tail _ m ih =>
    obtain ⟨d, hd, hpath, hphase⟩ := ih
    obtain ⟨c', hc', hpath', hphase'⟩ := m.seated hd (by rw [Client.isAuthenticated, hphase]; exact hauth)
    exact ⟨c', hc', hpath'.trans hpath, hphase'.trans hphase⟩

end Census

namespace Relay

variable {r s : Relay} {id who : ClientId} {c c' : Client} {act : Action} {path : PathId} {a : Address}

theorem seated_perform (hc : r.client? id = some c) (hauth : c.isAuthenticated = true)
    (hc' : (r.perform act).client? id = some c') : c'.path = c.path ∧ c'.phase = c.phase := by
  have hheard : ∃ d, (r.heard act).client? id = some d ∧ d.path = c.path ∧ d.phase = c.phase := by
    have hhear : ∀ other bytes, ∃ d, (r.hear other bytes).client? id = some d ∧ d.path = c.path ∧
        d.phase = c.phase := by
      intro other bytes
      rcases hear_cases r other bytes with ⟨heq, -⟩ | ⟨d, f, next, hd, -, -, heq⟩
      · rw [heq]
        exact ⟨c, hc, rfl, rfl⟩
      · rw [heq, client?_setClient]
        split
        · next heq =>
          subst heq
          cases hc.symm.trans hd
          exact ⟨{ c with expected := some next }, by rw [hc]; rfl, rfl, rfl⟩
        · exact ⟨c, hc, rfl, rfl⟩
    cases act with
    | receive other bytes => exact hhear other bytes
    | unpack other bytes => exact hhear other bytes
    | _ => exact ⟨c, hc, rfl, rfl⟩
  obtain ⟨d, hd, hpath, hphase⟩ := hheard
  have hdauth : d.standing.isAuthenticated = true := by
    show d.phase.isAuthenticated = true
    rw [hphase]
    exact hauth
  obtain ⟨t, ht, hpath', hphase'⟩ := (census_perform r act).seated (census_client? hd) hdauth
  cases (census_client? hc').symm.trans ht
  exact ⟨hpath'.trans hpath, hphase'.trans hphase⟩

/-- Whoever becomes authenticated was answered. -/
theorem answered_of_steps {service : Service} {es : List Event}
    (h : Client.Steps service c es c') (hbefore : c.isAuthenticated = false)
    (hauth : c'.isAuthenticated = true) : ∃ auth seats frame, .answered auth seats frame ∈ es := by
  have hanswered := h.keep (P := fun c history =>
    c.isAuthenticated = true → ∃ auth seats frame, .answered auth seats frame ∈ history)
    (fun c es c' history hstep hc hauth => ?_) [] fun htrue => by cases hbefore.symm.trans htrue
  · exact hanswered hauth
  · have hkept : c.isAuthenticated = true → ∃ auth seats frame,
        .answered auth seats frame ∈ history ++ es := by
      intro htrue
      obtain ⟨auth, seats, frame, hmem⟩ := hc htrue
      exact ⟨auth, seats, frame, List.mem_append_left _ hmem⟩
    cases hstep with
    | answer => exact ⟨_, _, _, List.mem_append_right _ (.head _)⟩
    | introduce hok =>
      obtain ⟨-, rfl⟩ := Client.introduce_eq_ok.mp hok
      cases hauth
    | authorize hok =>
      obtain ⟨role, key, permanent, -, -, -, -, rfl⟩ := Client.authorize_eq_ok.mp hok
      cases hauth
    | greet =>
      replace hauth : Phase.isAuthenticated .greeted = true := hauth
      cases hauth
    | refuse hbefore | drop hbefore | tell hbefore | pass hbefore | queue hbefore =>
      exact hkept hbefore
    | pack hpack =>
      obtain ⟨next, -, rfl⟩ := Client.eq_of_pack hpack
      exact hkept hauth
    | post hsending | serve _ hsending => exact hkept (Client.sending_eq_ok.mp hsending).1
    | _ => exact hkept hauth

/-- Whoever becomes authenticated by an action has an address. -/
theorem get_of_authenticated (hr : r.census.Coherent)
    (hbefore : ∀ c, r.client? id = some c → c.isAuthenticated = false)
    (hc' : (r.perform act).client? id = some c') (hauth : c'.isAuthenticated = true) :
    ((r.perform act).slots c'.path).get c'.id = some id := by
  rcases steps_perform hr act hc' with ⟨c, hc, hsteps⟩ | ⟨path, key, subprotocol, draw, -, -, rfl, -⟩
  · obtain ⟨auth, seats, frame, hmem⟩ := answered_of_steps hsteps (hbefore c hc) hauth
    have hnews : (id, .answered auth seats frame) ∈ (r.record act).news :=
      List.mem_filter.mpr ⟨Journal.mem_of.mp hmem, rfl⟩
    have hs := coherent_perform hr act
    have hturn := turn_perform hr act
    generalize (r.record act).news = news at hturn hnews
    generalize r.perform act = s at hturn hs hc'
    cases hturn with
    | quiet | release => cases hnews
    | introduce | authorize | relay | drop => cases List.mem_singleton.mp hnews
    | leave =>
      obtain ⟨other, -, heq⟩ := List.mem_map.mp hnews
      cases heq
    | seat _ _ _ _ _ hslots =>
      rcases List.mem_cons.mp hnews with heq | htold
      · cases heq
        have hget := (hslots _ _).trans (if_pos ⟨rfl, rfl⟩)
        obtain ⟨p, d, hd, ho⟩ := occupant_of_get hs hget
        cases hc'.symm.trans hd
        rw [ho.path_eq, ho.id_eq]
        exact hget
      · obtain ⟨other, -, heq⟩ := List.mem_map.mp htold
        cases heq
  · cases hauth

/-! ## Runs -/

/-- Why a client that was seated has no address any more, with the client's role and the code with which
its writer was told to close. -/
inductive Evicted (service : Service) (actions : List Action) (id : ClientId) :
    Role → CloseCode → Prop where
  /-- Another initiator was given the address. -/
  | supplanted {before after : List Action} {act : Action} {other : ClientId} {path : PathId}
      (hactions : actions = before ++ act :: after) (hne : other ≠ id)
      (hhad : (((new service).run before).slots path).get .initiator = some id)
      (htaken : ((((new service).run before).perform act).slots path).get .initiator = some other) :
      Evicted service actions id .initiator .dropByInitiator
  /-- An initiator had the responder dropped, for the reason that it gave. -/
  | dropped {before after : List Action} {initiator : ClientId} {bytes : Bytes} {c c' : Client}
      {responder : Address} {reason : Option CloseCode}
      (hactions : actions = before ++ .receive initiator bytes :: after)
      (hc : ((new service).run before).client? initiator = some c)
      (hauth : c.isAuthenticated = true) (hrole : c.role? = some .initiator)
      (hread : c.unpack bytes = .ok (.dropResponder responder reason, c'))
      (hhad : (((new service).run before).slots c.path).get responder = some id) :
      Evicted service actions id .responder (reason.getD .dropByInitiator)

variable {service : Service} {actions : List Action}

theorem Evicted.append {role : Role} {code : CloseCode} (h : Evicted service actions id role code)
    (more : List Action) : Evicted service (actions ++ more) id role code := by
  cases h with
  | supplanted hactions hne hhad htaken =>
    exact .supplanted (by rw [hactions, List.append_assoc]; rfl) hne hhad htaken
  | dropped hactions hc hauth hrole hread hhad =>
    exact .dropped (by rw [hactions, List.append_assoc]; rfl) hc hauth hrole hread hhad

/-- Who loses an address and does not depart is evicted, and told so. -/
theorem Loses.evicted (hr : ((new service).run actions).census.Coherent)
    (hget : (((new service).run actions).slots path).get a = some id)
    (hc : ((new service).run actions).client? id = some c)
    (h : Loses ((new service).run actions) act path a id) (hact : act ≠ .disconnect id) :
    ∃ role code, c.role? = some role ∧ Evicted service (actions ++ [act]) id role code ∧
      (id, .ordered (.close code)) ∈ ((new service).run actions).record act := by
  obtain ⟨p, d, hd, ho⟩ := occupant_of_get hr hget
  cases hc.symm.trans hd
  have hrole : ∀ role, a.kind = role.addressKind → c.role? = some role := by
    intro role hkind
    have hrole := ho.role
    rw [hkind] at hrole
    obtain ⟨own, hown, heq⟩ := Option.map_eq_some_iff.mp hrole
    rw [hown]
    cases own <;> cases role <;> first | rfl | cases heq
  cases h with
  | departs heq => exact absurd heq hact
  | supplanted ha hne htaken hrecord =>
    subst ha
    exact ⟨.initiator, _, hrole .initiator rfl, .supplanted rfl hne hget htaken, hrecord⟩
  | dropped heq hinitiator hauth hinitiatorRole hpath hread hrecord =>
    subst heq hpath
    have hresponder := (Address.isResponder_iff a).mp (Client.isResponder_of_unpack hread)
    exact ⟨.responder, _, hrole .responder hresponder,
      .dropped rfl hinitiator hauth hinitiatorRole hread hget, hrecord⟩

/-- The answer to an admitted client can always be packed. -/
theorem packed_of_ordinary {admission : Admission}
    (hordinary : ∀ act ∈ actions, act.isOrdinary = true)
    (hc : ((new service).run actions).client? id = some c) (hphase : c.phase = .admitted admission)
    (path : PathId) (destination : Address) (m : Message) :
    ∃ packed, { c with path := path }.pack destination m = .ok packed := by
  refine admitted_packed (fun destination m hmem => ?_) (fun key subprotocol draw hmem => ?_)
    hc hphase path destination m
  · exact absurd (hordinary _ hmem) Bool.false_ne_true
  · exact beq_iff_eq.mp (hordinary _ hmem)

/-- Every client that was seated and has not departed has its address, or was evicted and told so. -/
theorem seated_or_evicted (hordinary : ∀ act ∈ actions, act.isOrdinary = true) (id : ClientId)
    (c : Client) (hc : ((new service).run actions).client? id = some c)
    (hauth : c.isAuthenticated = true) (hpresent : c.gone = false) :
    (((new service).run actions).slots c.path).get c.id = some id ∨
    ∃ role code, c.role? = some role ∧ Evicted service actions id role code ∧
      .ordered (.close code) ∈ (new service).history actions id := by
  induction actions using List.reverseRecOn generalizing c with
  | nil => simp [new, client?] at hc
  | append_singleton actions act ih =>
    have hordinary' : ∀ act ∈ actions, act.isOrdinary = true :=
      fun act hmem => hordinary act (List.mem_append_left _ hmem)
    have hr := coherent_run service actions
    rw [run_concat] at hc ⊢
    by_cases hseated : ∃ d, ((new service).run actions).client? id = some d ∧
        d.isAuthenticated = true
    · obtain ⟨d, hd, hdauth⟩ := hseated
      obtain ⟨hpath, hphase⟩ := seated_perform hd hdauth hc
      have hid : c.id = d.id := by rw [Client.id, hphase, Client.id]
      have hrole : c.role? = d.role? := by rw [Client.role?, hphase, Client.role?]
      have hdpresent : d.gone = false := by
        obtain ⟨d', hd', hsteps⟩ := client?_perform hr act hd
        cases hc.symm.trans hd'
        rw [← Bool.not_eq_true]
        intro hgone
        cases hpresent.symm.trans (hsteps.later.gone hgone)
      rw [hpath, hid, hrole]
      rcases ih hordinary' d hd hdauth hdpresent with hget | ⟨role, code, hdrole, hevicted, hclosed⟩
      · by_cases hkept : ((((new service).run actions).perform act).slots d.path).get d.id = some id
        · exact .inl hkept
        · have hloses := loses_of_get_ne hr
            (fun _ _ _ _ _ _ hc hphase => packed_of_ordinary hordinary' hc hphase ..) hget hkept
          have hact : act ≠ .disconnect id := by
            rintro rfl
            obtain ⟨c', hc', hgone⟩ := gone_of_disconnect hd
            cases hc.symm.trans hc'
            cases hpresent.symm.trans hgone
          obtain ⟨role, code, hdrole, hevicted, hrecord⟩ := hloses.evicted hr hget hd hact
          refine .inr ⟨role, code, hdrole, hevicted, ?_⟩
          rw [history, journal_concat, Journal.of_append]
          exact List.mem_append_right _ (Journal.mem_of.mpr hrecord)
      · refine .inr ⟨role, code, hdrole, hevicted.append [act], ?_⟩
        rw [history_append]
        exact List.mem_append_left _ hclosed
    · refine .inl (get_of_authenticated hr (fun d hd => ?_) hc hauth)
      rw [← Bool.not_eq_true]
      exact fun htrue => hseated ⟨d, hd, htrue⟩

/-- A client that was seated and has neither departed nor been told to close. -/
structure Open (service : Service) (actions : List Action) (id : ClientId) (c : Client) : Prop where
  client_eq : ((new service).run actions).client? id = some c
  authenticated : c.isAuthenticated = true
  present : c.gone = false
  unclosed : ∀ code, .close code ∉ channel service actions id

/-- Evictions are noticed. Who was seated and has not departed has its address still, or it was evicted, and
the order to close, with the code that says why, was put into its channel. An answer to an admitted client
can always be packed. One initiator for each key at most is still there and was not told to close. -/
structure Noticed (service : Service) (actions : List Action) : Prop where
  seated : ∀ id c, ((new service).run actions).client? id = some c → c.isAuthenticated = true →
    c.gone = false → (((new service).run actions).slots c.path).get c.id = some id ∨
      ∃ role code, c.role? = some role ∧ Evicted service actions id role code ∧
        .close code ∈ channel service actions id
  packed : ∀ id c a path address auth, ((new service).run actions).client? id = some c →
    c.phase = .admitted a →
    ∃ frame, { c with path := path }.pack address (.serverAuth auth) = .ok frame
  unique : ∀ id c id' c', Open service actions id c → Open service actions id' c' →
    c.role? = some .initiator → c'.role? = some .initiator →
    c.initiatorKey = c'.initiatorKey → id = id'

/-- An initiator that is open has the initiator's address on the path that is registered under its key. -/
theorem Open.initiator {id : ClientId} {c : Client} (h : Open service actions id c)
    (hrole : c.role? = some .initiator)
    (hget : (((new service).run actions).slots c.path).get c.id = some id) :
    (((new service).run actions).slots c.path).get .initiator = some id ∧
      ((new service).run actions).registry.find? c.initiatorKey.hex = some c.path := by
  have hr := coherent_run service actions
  obtain ⟨p, hp, hgetp⟩ := get_eq_some hget
  obtain ⟨d, hd, ho⟩ := occupant_of_coherent hr hp hgetp
  obtain ⟨q, hq, hkey⟩ := hr.onPath id _ (census_client? h.client_eq)
  cases h.client_eq.symm.trans hd
  cases hp.symm.trans hq
  have hkind := ho.role
  rw [hrole] at hkind
  refine ⟨Address.eq_initiator (Option.some.inj hkind).symm ▸ hget, ?_⟩
  have hregistered := ho.registered
  rw [hkey] at hregistered
  exact hregistered

/-- **Nobody is evicted silently**, where nothing is packed from outside and no writer goes away. -/
theorem evicted_run (service : Service) (actions : List Action)
    (hordinary : ∀ act ∈ actions, act.isOrdinary = true) : Noticed service actions := by
  have hseated : ∀ id c, ((new service).run actions).client? id = some c → c.isAuthenticated = true →
      c.gone = false → (((new service).run actions).slots c.path).get c.id = some id ∨
        ∃ role code, c.role? = some role ∧ Evicted service actions id role code ∧
          .close code ∈ channel service actions id := by
    intro id c hc hauth hpresent
    refine (seated_or_evicted hordinary id c hc hauth hpresent).imp_right ?_
    rintro ⟨role, code, hrole, hevicted, hclosed⟩
    have hhung : .hangUp id ∉ actions := fun hmem => absurd (hordinary _ hmem) Bool.false_ne_true
    exact ⟨role, code, hrole, hevicted, mem_channel_of_ordered hhung hc hclosed⟩
  refine ⟨hseated, fun id c a path address auth hc hphase => packed_of_ordinary hordinary hc hphase ..,
    fun id c id' c' ho ho' hrole hrole' hkey => ?_⟩
  have hslot : ∀ {id c}, Open service actions id c →
      (((new service).run actions).slots c.path).get c.id = some id := by
    intro id c ho
    refine (hseated id c ho.client_eq ho.authenticated ho.present).resolve_right ?_
    rintro ⟨-, code, -, -, hmem⟩
    exact ho.unclosed code hmem
  -- Both have the initiator's address, and on the same path, since only one is registered.
  obtain ⟨hget, hfind⟩ := ho.initiator hrole (hslot ho)
  obtain ⟨hget', hfind'⟩ := ho'.initiator hrole' (hslot ho')
  rw [hkey, hfind'] at hfind
  rw [Option.some.inj hfind] at hget'
  exact Option.some.inj (hget.symm.trans hget')

/-- Two initiators of one key have come one after the other, and the first one was evicted. -/
theorem evicted_run_displaced : (∀ act ∈ Displaced.actions, act.isOrdinary = true) ∧
    Noticed Displaced.service Displaced.actions := by
  have hordinary : ∀ act ∈ Displaced.actions, act.isOrdinary = true := by decide +kernel
  exact ⟨hordinary, evicted_run Displaced.service Displaced.actions hordinary⟩

end Relay

end Rendezvous
