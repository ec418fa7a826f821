import Mathlib.Data.List.Induction
import Rendezvous.Proofs.Relay.Eviction
import Rendezvous.Proofs.Relay.Turns

/-!
# Who has an address has proved itself

How a payload is opened depends on the client's phase: in plain, under the key of its path, or under the
key with which the client introduced itself. An address is given out later, by a job. This module shows
that nobody gets one who did not prove to hold the key that belongs to it.

The invariant says for each phase which frames were taken, and at which places in the run. Only two
actions can add to that, the ones that take an introduction or a proof. Whatever else happens, the phase
stays or settles by itself, and a frame that is accepted opens under the key that the phase goes by.

* **`Relay.Took`** — a frame is received, read as a message, and handled without an error.
* **`ProvedIn`**, **`Introduction`** — a client's proof, and a responder's introduction, in a run.
* **`Grounded`** — the invariant: what stands behind the phase of a client.
* **`authenticated_run`** — what follows for those who have an address.
-/

namespace Rendezvous

/-! ## What a client is known to be -/

namespace Phase

/-- How a phase goes on without a frame of the client's. -/
inductive Settles (p : Phase) : Phase → Prop where
  | same : Settles p p
  | greeted (h : p = .fresh) : Settles p .greeted
  | seated {a : Admission} {address : Address} (h : p = .admitted a) :
      Settles p (.seated a address)

theorem Settles.trans {p q s : Phase} (h : Settles p q) (h' : Settles q s) : Settles p s := by
  cases h' with
  | same => exact h
  | greeted heq =>
    subst heq
    cases h with
    | same => exact .greeted rfl
  | seated heq =>
    subst heq
    cases h with
    | same => exact .seated rfl

theorem Settles.clientKey_eq {p q : Phase} {key : PublicKey} (h : Settles p q)
    (hkey : p.clientKey? = some key) : q.clientKey? = some key := by
  cases h with
  | same => exact hkey
  | greeted heq =>
    rw [heq] at hkey
    cases hkey
  | seated heq =>
    rw [heq] at hkey
    exact hkey

theorem known_of_admission {p : Phase} {a : Admission} (h : p.admission? = some a) :
    p.clientKey? = some a.clientKey ∧ p.role? = some a.role := by
  cases p <;> cases h <;> exact ⟨rfl, rfl⟩

end Phase

namespace Client

variable {service : Service} {c c' : Client} {es : List Event}

theorem Step.phase_cases (h : Step service c es c') :
    c.phase.Settles c'.phase ∨
    (∃ key, es = [.introduced key] ∧ c.introduce key = .ok c') ∨
    (∃ auth, es = [.admitted auth] ∧ c.authorize service auth = .ok c') := by
  cases h with
  | introduce h => exact .inr (.inl ⟨_, rfl, h⟩)
  | authorize h => exact .inr (.inr ⟨_, rfl, h⟩)
  | greet hphase h =>
    obtain ⟨next, -, rfl⟩ := eq_of_pack h
    exact .inl (.greeted hphase)
  | @answer a address auth seats frame c₁ hphase h =>
    obtain ⟨outbox, heq⟩ := Relay.seated_eq c₁ a address frame
    rw [heq]
    exact .inl (.seated hphase)
  | refuse _ h | pack h =>
    obtain ⟨next, -, rfl⟩ := eq_of_pack h
    exact .inl .same
  | post h | serve _ h =>
    obtain ⟨next, -, rfl⟩ := eq_of_pack (sending_eq_ok.mp h).2
    exact .inl .same
  | _ => exact .inl .same

theorem Steps.settles (h : Steps service c es c') (hintroduced : ∀ key, .introduced key ∉ es)
    (hadmitted : ∀ auth, .admitted auth ∉ es) : c.phase.Settles c'.phase := by
  induction h with
  | refl => exact .same
  | tail _ step ih =>
    have hbefore := ih (fun key hmem => hintroduced key (List.mem_append_left _ hmem))
      (fun auth hmem => hadmitted auth (List.mem_append_left _ hmem))
    rcases step.phase_cases with hsettles | ⟨key, rfl, -⟩ | ⟨auth, rfl, -⟩
    · exact hbefore.trans hsettles
    · exact absurd (List.mem_append_right _ (List.mem_singleton_self _)) (hintroduced key)
    · exact absurd (List.mem_append_right _ (List.mem_singleton_self _)) (hadmitted auth)

/-- Once a client's key is known it is known for good. -/
theorem Step.clientKey_eq {key : PublicKey} (h : Step service c es c')
    (hkey : c.phase.clientKey? = some key) : c'.phase.clientKey? = some key := by
  rcases h.phase_cases with hsettles | ⟨own, -, hok⟩ | ⟨auth, -, hok⟩
  · exact hsettles.clientKey_eq hkey
  · obtain ⟨hgreeted, -⟩ := introduce_eq_ok.mp hok
    rw [hgreeted] at hkey
    cases hkey
  · obtain ⟨role, own, permanent, hclaimed, -, -, -, rfl⟩ := authorize_eq_ok.mp hok
    rcases claimed?_eq_some.mp hclaimed with ⟨hphase, -, -⟩ | ⟨hphase, -⟩
    · rw [hphase] at hkey
      cases hkey
    · rw [hphase] at hkey
      exact hkey

end Client

/-! ## Frames that are taken -/

/-- A payload opens for a client's session under a key. -/
def Client.Opens (c : Client) (key : PublicKey) (f : Frame) : Prop :=
  ∃ plain, Box.decrypt key c.session.secretKey f.header.nonce f.payload = .ok plain

/-- An accepted frame is an introduction right after the greeting, or it opens under the client's key. -/
theorem Client.opens_of_unpack {c c' : Client} {bytes : Bytes} {f : Frame} {m : Message}
    (hf : c.accepts? bytes = some f) (hu : c.unpack bytes = .ok (m, c')) :
    (c.phase = .greeted ∧ ∃ key, m = .clientHello key) ∨ c.Opens c.peerKey f := by
  obtain ⟨hparse, hserver, -⟩ := accepts?_eq_some.mp hf
  obtain ⟨g, hparse', -, ⟨-, next, -, hm, -⟩ | ⟨hother, -⟩⟩ := unpack_eq_ok.mp hu
  · cases hparse.symm.trans hparse'
    rcases openPayload_cases hm with hplain | hsealed
    · exact .inl hplain
    · obtain ⟨plain, hplain, -⟩ := openSealed_eq_ok.mp hsealed
      exact .inr ⟨plain, hplain⟩
  · cases hparse.symm.trans hparse'
    exact absurd hserver hother

/-- A proof that is taken opens under the key that the client claims. -/
theorem Client.proof_of_unpack {service : Service} {c c₁ c₂ : Client} {bytes : Bytes}
    {auth : ClientAuth} (hu : c.unpack bytes = .ok (.clientAuth auth, c₁))
    (hok : c₁.authorize service auth = .ok c₂) :
    ∃ f plain role key permanent, c.accepts? bytes = some f ∧
      c.claimed? = some (role, key) ∧
      Box.decrypt key c.session.secretKey f.header.nonce f.payload = .ok plain ∧
      Message.read plain = .ok (.clientAuth auth) ∧ auth.yourCookie = c.cookie ∧
      service.keyFor auth.yourKey = .ok permanent ∧
      c₂.phase = .admitted ⟨role, key, permanent, auth.pingInterval⟩ := by
  obtain ⟨role, key, permanent, hclaimed, hecho, -, hpermanent, rfl⟩ := authorize_eq_ok.mp hok
  obtain ⟨f, hparse, -, ⟨hserver, next, -, hopened, rfl⟩ | ⟨-, -, hraw, -⟩⟩ := unpack_eq_ok.mp hu
  · have hclaim : c.claimed? = some (role, key) := hclaimed
    have haccepts := accepts?_eq_some.mpr ⟨hparse, hserver, _, _, hu⟩
    rcases openPayload_cases hopened with ⟨-, key', hhello⟩ | hsealed
    · cases hhello
    · obtain ⟨plain, hplain, hread⟩ := openSealed_eq_ok.mp hsealed
      -- What is sealed is opened under the very key that the client claims.
      have hpeer : c.peerKey = key := by
        unfold peerKey
        rcases claimed?_eq_some.mp hclaim with ⟨hphase, -, rfl⟩ | ⟨hphase, -⟩
        · rw [hphase]
          rfl
        · rw [hphase]
          rfl
      rw [hpeer] at hplain
      exact ⟨f, plain, role, key, permanent, haccepts, hclaim, hplain, hread, hecho, hpermanent, rfl⟩
  · cases hraw

namespace Relay

/-- A frame that is received is read as a message and handled without an error. -/
def Took (r : Relay) (id : ClientId) (bytes : Bytes) (m : Message) : Prop :=
  (r.received id bytes).1 = .ok () ∧ ∃ c c', r.client? id = some c ∧ c.unpack bytes = .ok (m, c')

/-- No introduction of a client was taken in a run. -/
def NeverIntroduced (r : Relay) (actions : List Action) (id : ClientId) : Prop :=
  ∀ before bytes after key, actions = before ++ .receive id bytes :: after →
    ¬ (r.run before).Took id bytes (.clientHello key)

/-- A client introduced itself with a key at one point of a run and at no other. All frames to the server
that were accepted afterwards open under the key. -/
structure Introduction (r : Relay) (actions : List Action) (id : ClientId) (c : Client)
    (key : PublicKey) (before : List Action) (bytes : Bytes) (after : List Action) : Prop where
  eq : actions = before ++ .receive id bytes :: after
  took : (r.run before).Took id bytes (.clientHello key)
  only : ∀ before' bytes' after' key', actions = before' ++ .receive id bytes' :: after' →
    (r.run before').Took id bytes' (.clientHello key') → before' = before
  opens : ∀ f ∈ accepted id (r.run (before ++ [.receive id bytes])) after, c.Opens key f

/-- A frame was taken in a run that opens under a key and is read as a proof for a client: it repeats the
server's cookie, and names one of the permanent keys or none. -/
def ProvedIn (service : Service) (r : Relay) (actions : List Action) (id : ClientId) (c : Client)
    (key : PublicKey) : Prop :=
  ∃ before bytes after f plain auth, actions = before ++ .receive id bytes :: after ∧
    ((r.run before).received id bytes).1 = .ok () ∧ Frame.parse bytes = .ok f ∧
    f.header.destination = .server ∧
    Box.decrypt key c.session.secretKey f.header.nonce f.payload = .ok plain ∧
    Message.read plain = .ok (.clientAuth auth) ∧ auth.yourCookie = c.cookie ∧
    ∀ expected ∈ auth.yourKey, ∃ pair ∈ service.permanentKeys,
      pair.publicKey.samePoint expected = true

/-- What stands behind a phase of a client after a run. -/
inductive Grounded (service : Service) (r : Relay) (actions : List Action) (id : ClientId)
    (c : Client) : Phase → Prop where
  | unknown {p : Phase} (hp : p = .fresh ∨ p = .greeted) (hnever : r.NeverIntroduced actions id)
      (hopens : ∀ f ∈ accepted id r actions, c.Opens c.initiatorKey f) : Grounded service r actions id c p
  | introduced {key : PublicKey} {before : List Action} {bytes : Bytes} {after : List Action}
      (h : r.Introduction actions id c key before bytes after) :
      Grounded service r actions id c (.introduced key)
  | initiator {p : Phase} {a : Admission} (hp : p.admission? = some a) (hrole : a.role = .initiator)
      (hkey : a.clientKey = c.initiatorKey) (hnever : r.NeverIntroduced actions id)
      (hopens : ∀ f ∈ accepted id r actions, c.Opens a.clientKey f)
      (hproved : r.ProvedIn service actions id c a.clientKey) : Grounded service r actions id c p
  | responder {p : Phase} {a : Admission} {before : List Action} {bytes : Bytes}
      {after : List Action} (hp : p.admission? = some a) (hrole : a.role = .responder)
      (h : r.Introduction actions id c a.clientKey before bytes after)
      (hproved : (r.run (before ++ [.receive id bytes])).ProvedIn service after id c a.clientKey) :
      Grounded service r actions id c p

variable {service : Service} {r : Relay} {id : ClientId} {c c' : Client} {actions : List Action}
  {act : Action} {p q : Phase} {key : PublicKey} {before after : List Action} {bytes : Bytes}

/-! ## When the run goes on -/

theorem NeverIntroduced.concat (h : r.NeverIntroduced actions id)
    (hact : ∀ bytes key, act = .receive id bytes →
      ¬ (r.run actions).Took id bytes (.clientHello key)) :
    r.NeverIntroduced (actions ++ [act]) id := by
  intro before bytes after key heq
  rcases concat_eq_append_cons.mp heq with ⟨rfl, rfl, rfl⟩ | ⟨after', heq', rfl⟩
  · exact hact bytes key rfl
  · exact h before bytes after' key heq'

theorem Introduction.concat (h : r.Introduction actions id c key before bytes after)
    (hact : ∀ bytes key, act = .receive id bytes →
      ¬ (r.run actions).Took id bytes (.clientHello key))
    (hopens : ∀ f ∈ (r.run actions).accepted? id act, c.Opens key f) :
    r.Introduction (actions ++ [act]) id c key before bytes (after ++ [act]) := by
  refine ⟨by rw [h.eq, List.append_assoc, List.cons_append], h.took, ?_, ?_⟩
  · intro before' bytes' after' key' heq htook
    rcases concat_eq_append_cons.mp heq with ⟨rfl, rfl, rfl⟩ | ⟨after'', heq', rfl⟩
    · exact absurd htook (hact bytes' key' rfl)
    · exact h.only before' bytes' after'' key' heq' htook
  · intro f hf
    have hrun : (r.run (before ++ [.receive id bytes])).run after = r.run actions := by
      rw [← run_append, List.append_assoc, List.singleton_append, ← h.eq]
    rw [accepted_concat, hrun, List.mem_append, Option.mem_toList] at hf
    rcases hf with hf | hf
    · exact h.opens f hf
    · exact hopens f hf

theorem ProvedIn.concat (h : r.ProvedIn service actions id c key) :
    r.ProvedIn service (actions ++ [act]) id c key := by
  obtain ⟨before, bytes, after, f, plain, auth, rfl, hrest⟩ := h
  exact ⟨before, bytes, after ++ [act], f, plain, auth, by simp, hrest⟩

/-- Only the session and the cookie of a client, and the key of its path, matter. -/
theorem Grounded.later (h : Grounded service r actions id c p) (hlater : Client.Later c c') :
    Grounded service r actions id c' p := by
  obtain ⟨hsession, hcookie, hkey, -⟩ := hlater
  have hopens : ∀ {key f}, c.Opens key f → c'.Opens key f := by
    rintro key f ⟨plain, hplain⟩
    rw [← hsession] at hplain
    exact ⟨plain, hplain⟩
  have hproved : ∀ {r' : Relay} {actions' key}, r'.ProvedIn service actions' id c key →
      r'.ProvedIn service actions' id c' key := by
    intro r' actions' key h
    unfold ProvedIn
    rw [hsession, hcookie]
    exact h
  have hintroduced : ∀ {key before bytes after},
      r.Introduction actions id c key before bytes after →
      r.Introduction actions id c' key before bytes after :=
    fun h => ⟨h.eq, h.took, h.only, fun f hf => hopens (h.opens f hf)⟩
  cases h with
  | unknown hp hnever hall =>
    refine .unknown hp hnever fun f hf => ?_
    rw [hkey]
    exact hopens (hall f hf)
  | introduced h => exact .introduced (hintroduced h)
  | initiator hp hrole hown hnever hall hproof =>
    exact .initiator hp hrole (hown.trans hkey.symm) hnever (fun f hf => hopens (hall f hf))
      (hproved hproof)
  | responder hp hrole h hproof => exact .responder hp hrole (hintroduced h) (hproved hproof)

theorem Grounded.settle (h : Grounded service r actions id c p) (hsettles : p.Settles q) :
    Grounded service r actions id c q := by
  cases hsettles with
  | same => exact h
  | greeted hfresh =>
    subst hfresh
    cases h with
    | unknown _ hnever hopens => exact .unknown (.inr rfl) hnever hopens
    | initiator hp => cases hp
    | responder hp => cases hp
  | seated hadmitted =>
    subst hadmitted
    cases h with
    | unknown hp => rcases hp with hp | hp <;> cases hp
    | initiator hp hrole hkey hnever hopens hproved =>
      exact .initiator hp hrole hkey hnever hopens hproved
    | responder hp hrole h hproved => exact .responder hp hrole h hproved

/-- An action that takes no introduction adds at most a frame under the client's key. -/
theorem Grounded.concat (h : Grounded service r actions id c p)
    (hact : ∀ bytes key, act = .receive id bytes →
      ¬ (r.run actions).Took id bytes (.clientHello key))
    (hopens : ∀ f ∈ (r.run actions).accepted? id act,
      c.Opens (p.clientKey?.getD c.initiatorKey) f) :
    Grounded service r (actions ++ [act]) id c p := by
  have hall : ∀ {key}, (∀ f ∈ accepted id r actions, c.Opens key f) →
      (∀ f ∈ (r.run actions).accepted? id act, c.Opens key f) →
      ∀ f ∈ accepted id r (actions ++ [act]), c.Opens key f := by
    intro key hold hnew f hf
    rw [accepted_concat, List.mem_append, Option.mem_toList] at hf
    rcases hf with hf | hf
    · exact hold f hf
    · exact hnew f hf
  cases h with
  | unknown hp hnever hold =>
    have hkey : p.clientKey?.getD c.initiatorKey = c.initiatorKey := by
      rcases hp with rfl | rfl <;> rfl
    rw [hkey] at hopens
    exact .unknown hp (hnever.concat hact) (hall hold hopens)
  | introduced h => exact .introduced (h.concat hact hopens)
  | @initiator _ a hp hrole hkey hnever hold hproved =>
    rw [(Phase.known_of_admission hp).1, Option.getD_some] at hopens
    exact .initiator hp hrole hkey (hnever.concat hact) (hall hold hopens) hproved.concat
  | @responder _ a before bytes after hp hrole h hproved =>
    rw [(Phase.known_of_admission hp).1, Option.getD_some] at hopens
    exact .responder hp hrole (h.concat hact hopens) hproved.concat

/-! ## Steps -/

/-- Only a frame that was received introduces a client or has it admitted. -/
theorem taken_of_record (hr : r.census.Coherent) {e : Event}
    (he : (∃ key, e = .introduced key) ∨ ∃ auth, e = .admitted auth)
    (h : e ∈ (r.record act).of id) : ∃ bytes c c₁ c₂, act = .receive id bytes ∧
      r.client? id = some c ∧
      ((∃ key, e = .introduced key ∧ c.unpack bytes = .ok (.clientHello key, c₁) ∧
          c₁.introduce key = .ok c₂) ∨
        (∃ auth, e = .admitted auth ∧ c.unpack bytes = .ok (.clientAuth auth, c₁) ∧
          c₁.authorize r.service auth = .ok c₂)) := by
  have hnews : (id, e) ∈ (r.record act).news := by
    refine List.mem_filter.mpr ⟨Journal.mem_of.mp h, ?_⟩
    rcases he with ⟨key, rfl⟩ | ⟨auth, rfl⟩ <;> rfl
  have hturn := turn_perform hr act
  generalize (r.record act).news = j at hnews hturn
  -- Of all turns only two have such news.
  cases hturn with
  | @introduce _ bytes key c c₁ c₂ _ hact hc hu hok =>
    cases List.mem_singleton.mp hnews
    exact ⟨bytes, c, c₁, c₂, hact, hc, .inl ⟨key, rfl, hu, hok⟩⟩
  | @authorize _ bytes auth c c₁ c₂ _ hact hc hu hok =>
    cases List.mem_singleton.mp hnews
    exact ⟨bytes, c, c₁, c₂, hact, hc, .inr ⟨auth, rfl, hu, hok⟩⟩
  | quiet | release => cases hnews
  | seat =>
    rcases List.mem_cons.mp hnews with h | h
    · cases h
      rcases he with ⟨_, h⟩ | ⟨_, h⟩ <;> cases h
    · obtain ⟨d, -, h⟩ := List.mem_map.mp h
      cases h
      rcases he with ⟨_, h⟩ | ⟨_, h⟩ <;> cases h
  | leave =>
    obtain ⟨d, -, h⟩ := List.mem_map.mp hnews
    cases h
    rcases he with ⟨_, h⟩ | ⟨_, h⟩ <;> cases h
  | relay | drop =>
    cases List.mem_singleton.mp hnews
    rcases he with ⟨_, h⟩ | ⟨_, h⟩ <;> cases h

theorem received_of_unpack {m : Message} {c₁ : Client} (hc : r.client? id = some c)
    (hu : c.unpack bytes = .ok (m, c₁)) :
    r.received id bytes = (r.setClient id c₁).handle id c₁ m ∧
      (r.setClient id c₁).client? id = some c₁ := by
  refine ⟨by simp only [received, hc, hu], ?_⟩
  rw [client?_setClient, if_pos rfl, hc]
  rfl

theorem took_clientHello {c₁ : Client} (hc : r.client? id = some c)
    (hu : c.unpack bytes = .ok (.clientHello key, c₁)) :
    (r.Took id bytes (.clientHello key) ↔ c.phase = .greeted) ∧
    (c.phase = .greeted →
      (r.received id bytes).2.client? id = some { c₁ with phase := .introduced key }) := by
  obtain ⟨heq, hc₁⟩ := received_of_unpack hc hu
  obtain ⟨hphase, -⟩ := Client.unpack_phase hu
  rw [heq]
  unfold Took
  rw [heq]
  show ((((r.setClient id c₁).update id fun c => c.introduce key).1 = .ok () ∧ _) ↔ _) ∧
    (_ → ((r.setClient id c₁).update id fun c => c.introduce key).2.client? id = _)
  rcases update_cases (r.setClient id c₁) id fun c => c.introduce key with
    ⟨hnone, -⟩ | ⟨d, e, hd, he, hupdate⟩ | ⟨d, d', hd, hok, hupdate⟩
  · cases hc₁.symm.trans hnone
  · cases hc₁.symm.trans hd
    rw [hupdate]
    have hnot : c.phase ≠ .greeted := by
      intro hgreeted
      rw [Client.introduce, hphase, hgreeted] at he
      cases he
    exact ⟨⟨fun h => (by cases h.1), fun h => absurd h hnot⟩, fun h => absurd h hnot⟩
  · cases hc₁.symm.trans hd
    obtain ⟨hgreeted, rfl⟩ := Client.introduce_eq_ok.mp hok
    rw [hupdate]
    refine ⟨⟨fun _ => hphase ▸ hgreeted, fun _ => ⟨rfl, c, c₁, hc, hu⟩⟩, fun _ => ?_⟩
    rw [client?_setClient, if_pos rfl, hc₁]
    rfl

theorem received_clientAuth {c₁ c₂ : Client} {auth : ClientAuth} (hc : r.client? id = some c)
    (hu : c.unpack bytes = .ok (.clientAuth auth, c₁))
    (hok : c₁.authorize r.service auth = .ok c₂) :
    (r.received id bytes).1 = .ok () ∧ (r.received id bytes).2.client? id = some c₂ := by
  obtain ⟨-, hc₁⟩ := received_of_unpack hc hu
  rw [received_of_clientAuth hc hu, hok]
  refine ⟨rfl, ?_⟩
  show ((r.setClient id c₁).setClient id c₂).client? id = some c₂
  rw [client?_setClient, if_pos rfl, hc₁]
  rfl

/-- An introduction was taken. -/
theorem Grounded.introduce {c₁ : Client} (h : Grounded service r actions id c c.phase)
    (hc : (r.run actions).client? id = some c)
    (hu : c.unpack bytes = .ok (.clientHello key, c₁)) (hphase : c.phase = .greeted) :
    Grounded service r (actions ++ [.receive id bytes]) id c (.introduced key) := by
  rw [hphase] at h
  cases h with
  | unknown _ hnever _ =>
    have htook := (took_clientHello hc hu).1.mpr hphase
    refine .introduced ⟨rfl, htook, fun before' bytes' after' key' heq htook' => ?_, nofun⟩
    rcases concat_eq_append_cons.mp heq with ⟨hbefore, -, -⟩ | ⟨after'', heq', -⟩
    · exact hbefore.symm
    · exact absurd htook' (hnever before' bytes' after'' key' heq')
  | initiator hp => cases hp
  | responder hp => cases hp

/-- A proof was taken. It opens under the key that the client claimed. -/
theorem Grounded.authorize {c₁ c₂ : Client} {auth : ClientAuth}
    (h : Grounded service r actions id c c.phase) (hservice : (r.run actions).service = service)
    (hc : (r.run actions).client? id = some c) (hu : c.unpack bytes = .ok (.clientAuth auth, c₁))
    (hok : c₁.authorize (r.run actions).service auth = .ok c₂) :
    Grounded service r (actions ++ [.receive id bytes]) id c c₂.phase := by
  have hreceived := (received_clientAuth hc hu hok).1
  obtain ⟨f, plain, role, key, permanent, haccepts, hclaimed, hplain, hread, hecho, hpermanent,
    hadmitted⟩ := Client.proof_of_unpack hu hok
  obtain ⟨hparse, hserver, -⟩ := Client.accepts?_eq_some.mp haccepts
  have hpermanent' : ∀ expected ∈ auth.yourKey, ∃ pair ∈ service.permanentKeys,
      pair.publicKey.samePoint expected = true := by
    intro expected hexpected
    rw [hservice, hexpected] at hpermanent
    exact ⟨permanent, Service.mem_of_keyFor hpermanent⟩
  have hnotHello : ∀ bytes' key', Action.receive id bytes = .receive id bytes' →
      ¬ (r.run actions).Took id bytes' (.clientHello key') := by
    rintro bytes' key' heq ⟨-, d, d', hd, hu'⟩
    cases heq
    cases hc.symm.trans hd
    cases hu.symm.trans hu'
  have hnew : ∀ g ∈ (r.run actions).accepted? id (.receive id bytes), c.Opens key g := by
    intro g hg
    obtain ⟨bytes', d, heq | heq, hd, hg'⟩ := accepted?_eq_some.mp hg <;> cases heq
    cases hc.symm.trans hd
    cases haccepts.symm.trans hg'
    exact ⟨plain, hplain⟩
  rw [hadmitted]
  rcases Client.claimed?_eq_some.mp hclaimed with ⟨hphase, rfl, rfl⟩ | ⟨hphase, rfl⟩
  · -- Who has not introduced itself claims the key of its path.
    rw [hphase] at h
    cases h.concat hnotHello hnew with
    | unknown _ hnever hopens =>
      exact .initiator rfl rfl rfl hnever hopens ⟨actions, bytes, [], f, plain, auth, rfl, hreceived,
        hparse, hserver, hplain, hread, hecho, hpermanent'⟩
    | initiator hp => cases hp
    | responder hp => cases hp
  · rw [hphase] at h
    cases h with
    | unknown hp => rcases hp with hp | hp <;> cases hp
    | @introduced _ before bytes' after hintro =>
      -- What comes after the introduction ends where the run ends.
      have hrun : (r.run (before ++ [.receive id bytes'])).run after = r.run actions := by
        rw [← run_append, List.append_assoc, List.singleton_append, ← hintro.eq]
      rw [← hrun] at hreceived
      exact .responder rfl rfl (hintro.concat hnotHello hnew) ⟨after, bytes, [], f, plain, auth, rfl,
        hreceived, hparse, hserver, hplain, hread, hecho, hpermanent'⟩
    | initiator hp => cases hp
    | responder hp => cases hp

/-- **Steps.** -/
theorem Grounded.perform (h : Grounded service r actions id c c.phase)
    (hr : (r.run actions).census.Coherent) (hservice : (r.run actions).service = service)
    (hact : ∀ bytes, act ≠ .unpack id bytes) (hc : (r.run actions).client? id = some c)
    (hc' : ((r.run actions).perform act).client? id = some c')
    (hsteps : Client.Steps (r.run actions).service c (((r.run actions).record act).of id) c') :
    Grounded service r (actions ++ [act]) id c' c'.phase := by
  refine Grounded.later ?_ hsteps.later
  -- An introduction was taken, or a proof, or neither.
  by_cases hintroduced : ∃ key, .introduced key ∈ ((r.run actions).record act).of id
  · obtain ⟨key, hmem⟩ := hintroduced
    obtain ⟨bytes, d, c₁, c₂, rfl, hd, ⟨key', heq, hu, hok⟩ | ⟨auth, heq, -⟩⟩ :=
      taken_of_record hr (.inl ⟨key, rfl⟩) hmem
    · cases hc.symm.trans hd
      obtain ⟨hgreeted, -⟩ := Client.introduce_eq_ok.mp hok
      rw [(Client.unpack_phase hu).1] at hgreeted
      cases hc'.symm.trans ((took_clientHello hc hu).2 hgreeted)
      exact h.introduce hc hu hgreeted
    · cases heq
  · by_cases hadmitted : ∃ auth, .admitted auth ∈ ((r.run actions).record act).of id
    · obtain ⟨auth, hmem⟩ := hadmitted
      obtain ⟨bytes, d, c₁, c₂, rfl, hd, ⟨key', heq, -⟩ | ⟨auth', heq, hu, hok⟩⟩ :=
        taken_of_record hr (.inr ⟨auth, rfl⟩) hmem
      · cases heq
      · cases hc.symm.trans hd
        cases hc'.symm.trans (received_clientAuth hc hu hok).2
        exact h.authorize hservice hc hu hok
    · have hsettles := hsteps.settles (fun key hmem => hintroduced ⟨key, hmem⟩)
        fun auth hmem => hadmitted ⟨auth, hmem⟩
      -- An introduction would have been recorded.
      have hnotTaken : ∀ bytes key c₁, act = .receive id bytes →
          c.unpack bytes = .ok (.clientHello key, c₁) → c.phase ≠ .greeted := by
        intro bytes key c₁ heq hu hgreeted
        subst heq
        cases hc'.symm.trans ((took_clientHello hc hu).2 hgreeted)
        rw [hgreeted] at hsettles
        cases hsettles
      refine (h.concat (fun bytes key heq htook => ?_) fun f hf => ?_).settle hsettles
      · have htaken := htook
        obtain ⟨-, d, c₁, hd, hu⟩ := htaken
        cases hc.symm.trans hd
        exact hnotTaken bytes key c₁ heq hu ((took_clientHello hc hu).1.mp htook)
      · obtain ⟨bytes, d, heq | heq, hd, hf'⟩ := accepted?_eq_some.mp hf
        · cases hc.symm.trans hd
          obtain ⟨-, -, m, c₁, hu⟩ := Client.accepts?_eq_some.mp hf'
          rcases Client.opens_of_unpack hf' hu with ⟨hgreeted, key, rfl⟩ | hopens
          · exact absurd hgreeted (hnotTaken bytes key c₁ heq hu)
          · exact hopens
        · exact absurd heq (hact bytes)

/-! ## Runs -/

/-- Induction on the run, whose last action is the step. -/
theorem grounded_run (service : Service) (actions : List Action)
    (hactions : ∀ id bytes, Action.unpack id bytes ∉ actions) (id : ClientId) :
    (∀ c, ((new service).run actions).client? id = some c →
      Grounded service (new service) actions id c c.phase) ∧
    (((new service).run actions).client? id = none →
      (new service).NeverIntroduced actions id ∧ accepted id (new service) actions = []) := by
  induction actions using List.reverseRecOn with
  | nil =>
    refine ⟨fun c hc => by simp [new, client?] at hc, fun _ => ⟨?_, rfl⟩⟩
    intro before bytes after key heq
    exact absurd heq.symm (by simp)
  | append_singleton actions act ih =>
    have hbefore : ∀ id bytes, Action.unpack id bytes ∉ actions := fun other bytes hmem =>
      hactions other bytes (List.mem_append_left _ hmem)
    obtain ⟨hgrounded, hnever⟩ := ih hbefore
    have hr := coherent_run service actions
    have hact : ∀ bytes, act ≠ .unpack id bytes := by
      rintro bytes rfl
      exact hactions id bytes (List.mem_append_right _ (List.mem_singleton_self _))
    -- Who is not there is not heard of either.
    have habsent : ((new service).run actions).client? id = none →
        (new service).NeverIntroduced (actions ++ [act]) id ∧
          accepted id (new service) (actions ++ [act]) = [] := by
      intro hnone
      obtain ⟨hnever, hnil⟩ := hnever hnone
      refine ⟨hnever.concat fun bytes key _ htook => ?_, ?_⟩
      · obtain ⟨-, c, c', hc, -⟩ := htook
        cases hnone.symm.trans hc
      · rw [accepted_concat, hnil, List.nil_append, Option.toList_eq_nil_iff,
          Option.eq_none_iff_forall_ne_some]
        intro f hf
        obtain ⟨bytes, c, -, hc, -⟩ := accepted?_eq_some.mp hf
        cases hnone.symm.trans hc
    rw [run_concat]
    refine ⟨fun c' hc' => ?_, fun hnone => habsent (record_of_none hr act hnone).1⟩
    rcases steps_perform hr act hc' with ⟨c, hc, hsteps⟩ |
      ⟨path, key, subprotocol, draw, hnone, -, rfl, -⟩
    · exact (hgrounded c hc).perform hr (service_run service actions) hact hc hc' hsteps
    · obtain ⟨hnever, hnil⟩ := habsent hnone
      refine .unknown (.inl rfl) hnever fun f hf => ?_
      rw [hnil] at hf
      cases hf

theorem clientKey_run {service : Service} {actions : List Action} {key : PublicKey}
    (hc : ((new service).run actions).client? id = some c) (hkey : c.phase.clientKey? = some key)
    (more : List Action) : ∃ c', ((new service).run (actions ++ more)).client? id = some c' ∧
      c'.phase.clientKey? = some key := by
  rw [run_append]
  exact client?_run (P := fun c => c.phase.clientKey? = some key) (coherent_run service actions)
    (fun _ _ _ _ hstep h => hstep.clientKey_eq h) hc hkey more

/-- **Who has an address has proved itself.** In a run in which frames are not read without being
handled, the following holds of whoever has an address on a path. The initiator was never introduced;
all frames to the server that were accepted from it open under the key of the path, and among them is a
proof. A responder was introduced once, with some key; all frames to the server that were accepted
afterwards open under that key, and among them is a proof. That key is the client's, and once a client's
key is known it does not change. -/
theorem authenticated_run (service : Service) (actions : List Action)
    (hactions : ∀ id bytes, Action.unpack id bytes ∉ actions) :
    (∀ path p a id, ((new service).run actions).registry.path? path = some p →
      p.slots.get a = some id → ∃ c, ((new service).run actions).client? id = some c ∧
        (a = .initiator → c.phase.clientKey? = some p.key ∧
          (new service).NeverIntroduced actions id ∧
          (new service).ProvedIn service actions id c p.key ∧
          ∀ f ∈ accepted id (new service) actions, c.Opens p.key f) ∧
        (a ≠ .initiator → ∃ key before bytes after, c.phase.clientKey? = some key ∧
          (new service).Introduction actions id c key before bytes after ∧
          ((new service).run (before ++ [.receive id bytes])).ProvedIn service after id c key)) ∧
    (∀ id c key, ((new service).run actions).client? id = some c →
      c.phase.clientKey? = some key → ∀ more, ∃ c',
        ((new service).run (actions ++ more)).client? id = some c' ∧
        c'.phase.clientKey? = some key) := by
  have hr := coherent_run service actions
  refine ⟨fun path p a id hp hget => ?_, fun id c key hc hkey more => clientKey_run hc hkey more⟩
  obtain ⟨c, hc, hoccupant⟩ := occupant_of_coherent hr hp hget
  have hauth : c.phase.isAuthenticated = true := hoccupant.authenticated
  have hrole : c.phase.role?.map Role.addressKind = some a.kind := hoccupant.role
  -- A client stays on paths of the key with which it connected.
  have hpathKey : p.key = c.initiatorKey := by
    obtain ⟨q, hq, hkey⟩ := hr.onPath id _ (census_client? hc)
    have hpath : c.standing.path = path := hoccupant.path_eq
    rw [hpath] at hq
    cases Eq.trans hp.symm hq
    exact hkey
  refine ⟨c, hc, ?_⟩
  have hgrounded := (grounded_run service actions hactions id).1 c hc
  generalize c.phase = p at hgrounded hauth hrole ⊢
  cases hgrounded with
  | unknown hphase => rcases hphase with rfl | rfl <;> cases hauth
  | introduced => cases hauth
  | @initiator _ adm hadm hinitiator hkey hnever hopens hproved =>
    obtain ⟨hclientKey, hknown⟩ := Phase.known_of_admission hadm
    rw [hknown, hinitiator] at hrole
    have ha : a = .initiator := Address.eq_initiator (Option.some.inj hrole).symm
    rw [hkey, ← hpathKey] at hclientKey hopens hproved
    exact ⟨fun _ => ⟨hclientKey, hnever, hproved, hopens⟩, fun hne => absurd ha hne⟩
  | @responder _ adm before bytes after hadm hresponder hintro hproved =>
    obtain ⟨hclientKey, hknown⟩ := Phase.known_of_admission hadm
    rw [hknown, hresponder] at hrole
    refine ⟨fun ha => ?_, fun _ => ⟨adm.clientKey, before, bytes, after, hclientKey, hintro, hproved⟩⟩
    rw [ha] at hrole
    cases hrole

/-- The responder that a displaced initiator still may drop has introduced and proved itself. -/
theorem authenticated_run_displaced :
    (∀ id bytes, Action.unpack id bytes ∉ Displaced.actions) ∧
    ∃ path p a id c key before bytes after, Displaced.relay.registry.path? path = some p ∧
      p.slots.get a = some id ∧ a ≠ .initiator ∧ Displaced.relay.client? id = some c ∧
      c.phase.clientKey? = some key ∧
      (new Displaced.service).Introduction Displaced.actions id c key before bytes after ∧
      ((new Displaced.service).run (before ++ [.receive id bytes])).ProvedIn Displaced.service after
        id c key := by
  have hactions : ∀ id bytes, Action.unpack id bytes ∉ Displaced.actions := by
    intro id bytes
    simp [Displaced.actions, Displaced.connect]
  obtain ⟨d, -, -, -, -, a, reason, d', victim, hu, hvictim⟩ := Displaced.drops
  obtain ⟨p, hp, hget⟩ := get_eq_some hvictim
  have ha : a ≠ .initiator := by
    rintro rfl
    exact absurd (Client.isResponder_of_unpack hu) (by decide)
  obtain ⟨c, hc, -, hresponder⟩ :=
    (authenticated_run Displaced.service Displaced.actions hactions).1 d.path p a victim hp hget
  obtain ⟨key, before, bytes, after, hkey, hintro, hproved⟩ := hresponder ha
  exact ⟨hactions, d.path, p, a, victim, c, key, before, bytes, after, hp, hget, ha, hc, hkey, hintro,
    hproved⟩

end Relay

end Rendezvous
