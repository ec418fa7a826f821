import Rendezvous.Proofs.Relay.Eviction
import Rendezvous.Proofs.Relay.Accounts

/-!
# Which clients are admitted

A client that proves itself is admitted if four things are right, which are looked at one after the other: how
far its handshake got, the server's cookie, the subprotocol, and the server's key that it expects. Each of the
four is told here without the search that finds it out. What is wrong first is what the client is told, and
then nothing of it is kept: the client is where it was in its handshake and may try again. Otherwise it is
admitted with all that it asked for at once, and one answer is put off.

The subprotocol was settled before, when the connection was opened, from another list. The two searches
agree: names that were offered then are accepted now, and settle the same. Only then blanks around a name are
taken off; here names are taken as they are.

* **`Phase.Claims`**, **`Service.FirstShared`**, **`Service.Selects`** — the four conditions.
* **`Client.Proves`**, **`Client.Fails`** — all of them hold, and the first that does not.
* **`Service.negotiate_eq_some_iff`** — the subprotocol that a connection is opened with.
* **`Relay.credentials_run`** — who proves itself is admitted, and nobody else, in every run.
-/

namespace Rendezvous

/-- The role that a client can prove, by how far it got and the role that it has. -/
inductive Phase.Claims : Stage → Option Role → Role → Prop where
  | initiator : Claims .serverHello none .initiator
  | responder : Claims .clientHello (some .responder) .responder

namespace Service

variable {s : Service} {offered : List String} {name : String} {expected : Option PublicKey}
  {pair : KeyPair}

/-- A name is the first one on a list that the service speaks. -/
def FirstShared (s : Service) (offered : List String) (name : String) : Prop :=
  ∃ pre post, offered = pre ++ name :: post ∧ name ∈ s.subprotocols ∧ ∀ other ∈ pre, other ∉ s.subprotocols

/-- The key pair for a client that expects a key, which is the first with that public key, or for one that
expects none, which is the first of all. -/
inductive Selects (s : Service) : Option PublicKey → KeyPair → Prop where
  | named {key : PublicKey} {pre post : List KeyPair} {pair : KeyPair}
      (hkeys : s.permanentKeys = pre ++ pair :: post) (hsame : pair.publicKey.samePoint key = true)
      (hfirst : ∀ other ∈ pre, other.publicKey.samePoint key = false) : Selects s (some key) pair
  | primary {rest : List KeyPair} {pair : KeyPair} (hkeys : s.permanentKeys = pair :: rest) :
      Selects s none pair

theorem find?_speaks_iff : offered.find? s.speaks = some name ↔ s.FirstShared offered name := by
  have hspeaks : ∀ other, s.speaks other = true ↔ other ∈ s.subprotocols := fun other => by
    rw [speaks, List.contains_iff_mem]
  have hmutes : ∀ other, (!s.speaks other) = true ↔ other ∉ s.subprotocols := fun other => by
    rw [Bool.not_eq_true', ← hspeaks, Bool.not_eq_true]
  simp only [List.find?_eq_some_iff_append, hspeaks, hmutes]
  constructor
  · rintro ⟨hname, pre, post, rfl, hpre⟩
    exact ⟨pre, post, rfl, hname, hpre⟩
  · rintro ⟨pre, post, rfl, hname, hpre⟩
    exact ⟨hname, pre, post, rfl, hpre⟩

/-- A connection is opened with the first of the offered names that is spoken, without the blanks around it. -/
theorem negotiate_eq_some_iff :
    s.negotiate offered = some name ↔ s.FirstShared (offered.map Text.trim) name :=
  find?_speaks_iff

theorem findKey?_eq_some_iff {key : PublicKey} :
    s.findKey? key = some pair ↔ s.Selects (some key) pair := by
  rw [findKey?, List.find?_eq_some_iff_append]
  constructor
  · rintro ⟨hsame, pre, post, hkeys, hfirst⟩
    exact .named hkeys hsame fun other hmem => (Bool.not_eq_true' _).mp (hfirst other hmem)
  · intro h
    cases h with
    | named hkeys hsame hfirst =>
      exact ⟨hsame, _, _, hkeys, fun other hmem => (Bool.not_eq_true' _).mpr (hfirst other hmem)⟩

theorem primaryKey?_eq_some_iff : s.primaryKey? = some pair ↔ s.Selects none pair := by
  rw [primaryKey?, List.head?_eq_some_iff]
  constructor
  · rintro ⟨rest, hkeys⟩
    exact .primary hkeys
  · intro h
    cases h with
    | primary hkeys => exact ⟨_, hkeys⟩

/-- A client gets the selected key pair, or an error if there is none. -/
theorem keyFor_cases (s : Service) (expected : Option PublicKey) :
    (∃ pair, s.keyFor expected = .ok pair ∧ ∀ other, s.Selects expected other ↔ other = pair) ∨
    (s.keyFor expected =
        .error (if expected.isSome then .invalidPermanentKey else .noPermanentKey) ∧
      ∀ pair, ¬ s.Selects expected pair) := by
  cases expected with
  | some key =>
    cases hfind : s.findKey? key with
    | some pair =>
      refine .inl ⟨pair, by simp only [keyFor, hfind], fun other => ?_⟩
      rw [← findKey?_eq_some_iff, hfind, Option.some.injEq, eq_comm]
    | none =>
      refine .inr ⟨by simp only [keyFor, hfind]; rfl, fun pair h => ?_⟩
      cases hfind.symm.trans (findKey?_eq_some_iff.mpr h)
  | none =>
    cases hhead : s.primaryKey? with
    | some pair =>
      refine .inl ⟨pair, by simp only [keyFor, hhead], fun other => ?_⟩
      rw [← primaryKey?_eq_some_iff, hhead, Option.some.injEq, eq_comm]
    | none =>
      refine .inr ⟨by simp only [keyFor, hhead]; rfl, fun pair h => ?_⟩
      cases hhead.symm.trans (primaryKey?_eq_some_iff.mpr h)

theorem keyFor_eq_ok_iff : s.keyFor expected = .ok pair ↔ s.Selects expected pair := by
  rcases keyFor_cases s expected with ⟨found, hfound, hselects⟩ | ⟨hnone, hselects⟩
  · rw [hfound, hselects, Except.ok.injEq, eq_comm]
  · rw [hnone]
    exact iff_of_false nofun (hselects pair)

end Service

namespace Client

variable {c c' : Client} {service : Service} {auth : ClientAuth} {role : Role} {permanent : KeyPair}

/-- A client proves itself: all conditions hold. -/
structure Proves (c : Client) (service : Service) (auth : ClientAuth) (role : Role) (permanent : KeyPair) :
    Prop where
  claims : Phase.Claims c.stage c.role? role
  cookie : auth.yourCookie = c.cookie
  subprotocol : service.FirstShared auth.subprotocols c.subprotocol
  key : service.Selects auth.yourKey permanent

/-- A client does not prove itself. The first condition that does not hold gives the error, and the number with
which the connection is to be closed. -/
inductive Fails (c : Client) (service : Service) (auth : ClientAuth) : ProtocolError → UInt16 → Prop where
  | stage (h : ∀ role, ¬ Phase.Claims c.stage c.role? role) :
      Fails c service auth (.unexpectedMessage .clientAuth c.stage) 3001
  | cookie {role : Role} (hclaims : Phase.Claims c.stage c.role? role) (h : auth.yourCookie ≠ c.cookie) :
      Fails c service auth .cookieNotEchoed 3001
  | subprotocol {role : Role} (hclaims : Phase.Claims c.stage c.role? role)
      (hcookie : auth.yourCookie = c.cookie)
      (h : ¬ service.FirstShared auth.subprotocols c.subprotocol) :
      Fails c service auth .subprotocolMismatch 1002
  | key {role : Role} (hclaims : Phase.Claims c.stage c.role? role) (hcookie : auth.yourCookie = c.cookie)
      (hsubprotocol : service.FirstShared auth.subprotocols c.subprotocol)
      (h : ∀ permanent, ¬ service.Selects auth.yourKey permanent) :
      Fails c service auth (if auth.yourKey.isSome then .invalidPermanentKey else .noPermanentKey) 3007

theorem claimed?_iff {key : PublicKey} :
    c.claimed? = some (role, key) ↔ Phase.Claims c.stage c.role? role ∧ key = c.peerKey := by
  unfold claimed? stage role? peerKey
  cases c.phase with
  | greeted =>
    constructor
    · intro h
      cases h
      exact ⟨.initiator, rfl⟩
    · rintro ⟨⟨⟩, rfl⟩
      rfl
  | introduced own =>
    constructor
    · intro h
      cases h
      exact ⟨.responder, rfl⟩
    · rintro ⟨⟨⟩, rfl⟩
      rfl
  | _ => exact iff_of_false nofun fun h => nomatch h.1

/-- **Who proves itself is admitted**, with its role, its key, the selected key pair and the pings that it asked
for, and nothing else about it changes. -/
theorem authorize_iff_proves : c.authorize service auth = .ok c' ↔ ∃ role permanent,
    c.Proves service auth role permanent ∧
      c' = { c with phase := .admitted ⟨role, c.peerKey, permanent, auth.pingInterval⟩ } := by
  simp only [authorize_eq_ok, claimed?_iff, Service.find?_speaks_iff, Service.keyFor_eq_ok_iff]
  constructor
  · rintro ⟨role, key, permanent, ⟨hclaims, rfl⟩, hcookie, hsubprotocol, hkey, rfl⟩
    exact ⟨role, permanent, ⟨hclaims, hcookie, hsubprotocol, hkey⟩, rfl⟩
  · rintro ⟨role, permanent, h, rfl⟩
    exact ⟨role, c.peerKey, permanent, ⟨h.claims, rfl⟩, h.cookie, h.subprotocol, h.key, rfl⟩

/-- **What is wrong first is what a client is told.** -/
theorem authorize_of_fails {e : ProtocolError} {code : UInt16} (h : c.Fails service auth e code) :
    c.authorize service auth = .error e := by
  have hclaimed : ∀ {role}, Phase.Claims c.stage c.role? role → c.claimed? = some (role, c.peerKey) :=
    fun hclaims => claimed?_iff.mpr ⟨hclaims, rfl⟩
  unfold authorize
  -- What is looked at before the condition that fails is right, so each case gets that far.
  cases h with
  | stage h =>
    have hnone : c.claimed? = none :=
      Option.eq_none_iff_forall_ne_some.mpr fun claim hclaim => h claim.1 (claimed?_iff.mp hclaim).1
    rw [hnone]
    rfl
  | cookie hclaims h =>
    rw [hclaimed hclaims]
    exact if_pos h
  | subprotocol hclaims hcookie h =>
    rw [hclaimed hclaims]
    refine (if_neg (not_not_intro hcookie)).trans (if_pos ?_)
    rwa [ne_eq, Service.find?_speaks_iff]
  | key hclaims hcookie hsubprotocol h =>
    rw [hclaimed hclaims]
    refine (if_neg (not_not_intro hcookie)).trans
      ((if_neg (not_not_intro (Service.find?_speaks_iff.mpr hsubprotocol))).trans ?_)
    rcases Service.keyFor_cases service auth.yourKey with ⟨pair, -, hselects⟩ | ⟨herror, -⟩
    · exact absurd ((hselects pair).mpr rfl) (h pair)
    · rw [herror]
      rfl

/-- There is no third way. -/
theorem proves_or_fails (c : Client) (service : Service) (auth : ClientAuth) :
    (∃ role permanent, c.Proves service auth role permanent) ∨ ∃ e code, c.Fails service auth e code := by
  by_cases hclaims : ∃ role, Phase.Claims c.stage c.role? role
  · obtain ⟨role, hclaims⟩ := hclaims
    by_cases hcookie : auth.yourCookie = c.cookie
    · by_cases hsubprotocol : service.FirstShared auth.subprotocols c.subprotocol
      · by_cases hkey : ∃ permanent, service.Selects auth.yourKey permanent
        · obtain ⟨permanent, hkey⟩ := hkey
          exact .inl ⟨role, permanent, hclaims, hcookie, hsubprotocol, hkey⟩
        · exact .inr ⟨_, _, .key hclaims hcookie hsubprotocol (not_exists.mp hkey)⟩
      · exact .inr ⟨_, _, .subprotocol hclaims hcookie hsubprotocol⟩
    · exact .inr ⟨_, _, .cookie hclaims hcookie⟩
  · exact .inr ⟨_, _, .stage (not_exists.mp hclaims)⟩

theorem Fails.code_eq {e : ProtocolError} {code : UInt16} (h : c.Fails service auth e code) :
    e.closeCode.code = code := by
  cases h with
  | key => split <;> rfl
  | _ => rfl

/-- How far a client's frames got makes no difference. -/
theorem proves_expected_iff (expected : Option Expectation) :
    { c with expected := expected }.Proves service auth role permanent ↔
      c.Proves service auth role permanent :=
  ⟨fun h => ⟨h.claims, h.cookie, h.subprotocol, h.key⟩, fun h => ⟨h.claims, h.cookie, h.subprotocol, h.key⟩⟩

theorem Fails.expected {expected : Option Expectation} {e : ProtocolError} {code : UInt16}
    (h : c.Fails service auth e code) : { c with expected := expected }.Fails service auth e code := by
  cases h with
  | stage h => exact .stage h
  | cookie hclaims h => exact .cookie hclaims h
  | subprotocol hclaims hcookie h => exact .subprotocol hclaims hcookie h
  | key hclaims hcookie hsubprotocol h => exact .key hclaims hcookie hsubprotocol h

end Client

/-! ## Runs -/

namespace Relay

variable {r : Relay} {id : ClientId} {c c' : Client} {bytes : Bytes} {auth : ClientAuth}

/-- A relay after a client was admitted. -/
structure Admitted (r : Relay) (id : ClientId) (c : Client) (admission : Admission) (s : Relay) : Prop where
  self : s.client? id = some { c with phase := .admitted admission }
  others : ∀ other, other ≠ id → s.client? other = r.client? other
  jobs : s.jobs.pending = r.jobs.pending ++ [.answer id]
  rest : s = { r with clients := s.clients, jobs := s.jobs }

theorem admitted_setClient (hc : r.client? id = some c) (c' : Client) (admission : Admission) :
    r.Admitted id c' admission (((r.setClient id c').setClient id
      { c' with phase := .admitted admission }).dispatch (.answer id)) := by
  refine ⟨?_, fun other hne => ?_, rfl, rfl⟩
  · refine (client?_setClient ..).trans ?_
    rw [if_pos rfl, client?_setClient, if_pos rfl, hc]
    rfl
  · refine (client?_setClient ..).trans ?_
    rw [if_neg (Ne.symm hne), client?_setClient, if_neg (Ne.symm hne)]

/-- **Who proves itself is admitted, and nobody else.** Whatever happened before, a client's proof that can be
read is accepted if and only if the client is at the right stage with the right role, repeats the server's
cookie, lists the connection's subprotocol before all others that the relay speaks, and expects a permanent key
that the relay has, or none in particular when there is one. Then it has the role, the selected key pair and the
pings, and one answer is put off. Otherwise it gets the error of the first condition that fails, and has got no
further in the handshake; nothing else changes with it, and nothing is put off. The names of a list that was
offered when the connection was opened, without blanks around them, are accepted now if and only if the
connection was opened with what was then chosen from it. -/
theorem credentials_run (service : Service) (actions : List Action) (id : ClientId) (c c' : Client)
    (bytes : Bytes) (auth : ClientAuth) (hc : ((new service).run actions).client? id = some c)
    (hu : c.unpack bytes = .ok (.clientAuth auth, c')) :
    (∃ next, c' = { c with expected := some next }) ∧
    ((((new service).run actions).received id bytes).1 = .ok () ↔
      ∃ role permanent, c.Proves service auth role permanent) ∧
    (∀ role permanent, c.Proves service auth role permanent →
      ((new service).run actions).Admitted id c' ⟨role, c.peerKey, permanent, auth.pingInterval⟩
        (((new service).run actions).received id bytes).2) ∧
    ((¬ ∃ role permanent, c.Proves service auth role permanent) →
      ∃ e code, c.Fails service auth e code ∧ e.closeCode.code = code ∧
        ((new service).run actions).received id bytes =
          (.error e, ((new service).run actions).setClient id c')) ∧
    ∀ offered, auth.subprotocols = offered.map Text.trim →
      (service.FirstShared auth.subprotocols c.subprotocol ↔
        service.negotiate offered = some c.subprotocol) := by
  have hexpected : ∃ next, c' = { c with expected := some next } := by
    obtain ⟨f, -, -, ⟨-, next, -, -, heq⟩ | ⟨-, -, hraw, -⟩⟩ := Client.unpack_eq_ok.mp hu
    · exact ⟨next, heq⟩
    · cases hraw
  have hservice := service_run service actions
  generalize (new service).run actions = r at hc hservice ⊢
  have hreceived := received_of_clientAuth hc hu
  rw [hservice] at hreceived
  obtain ⟨next, rfl⟩ := hexpected
  -- To read the proof moves on what is expected next, and on that no condition depends.
  have hadmitted : ∀ role permanent, c.Proves service auth role permanent →
      (r.received id bytes).1 = .ok () ∧
        r.Admitted id { c with expected := some next } ⟨role, c.peerKey, permanent, auth.pingInterval⟩
          (r.received id bytes).2 := by
    intro role permanent h
    have hproves := (Client.proves_expected_iff (some next)).mpr h
    rw [hreceived, Client.authorize_iff_proves.mpr ⟨role, permanent, hproves, rfl⟩]
    exact ⟨rfl, admitted_setClient hc { c with expected := some next } _⟩
  have hfailed : ∀ e code, c.Fails service auth e code →
      r.received id bytes = (.error e, r.setClient id { c with expected := some next }) :=
    fun e code h => by rw [hreceived, Client.authorize_of_fails h.expected]
  refine ⟨⟨next, rfl⟩, ⟨fun h => ?_, fun ⟨role, permanent, h⟩ => (hadmitted role permanent h).1⟩,
    fun role permanent h => (hadmitted role permanent h).2, fun h => ?_, fun offered heq => ?_⟩
  · rcases Client.proves_or_fails c service auth with hproves | ⟨e, code, hfails⟩
    · exact hproves
    · rw [hfailed e code hfails] at h
      cases h
  · obtain ⟨e, code, hfails⟩ := (Client.proves_or_fails c service auth).resolve_left h
    exact ⟨e, code, hfails, hfails.code_eq, hfailed e code hfails⟩
  · rw [heq]
    exact Service.negotiate_eq_some_iff.symm

/-- What the initiators of the scenario prove themselves with. -/
def Displaced.initiatorClaim : ClientAuth := ⟨⟨Octets.fit [3]⟩, ["v1.saltyrtc.org"], 0, none⟩

/-- The first client of the scenario proves that it is the initiator, and is admitted. -/
theorem credentials_run_displaced : ∃ c c' role permanent,
    ((new Displaced.service).run [Displaced.connect, .greet ⟨0⟩]).client? ⟨0⟩ = some c ∧
    c.unpack Displaced.initiatorAuth = .ok (.clientAuth Displaced.initiatorClaim, c') ∧
    c.Proves Displaced.service Displaced.initiatorClaim role permanent ∧
    ((new Displaced.service).run [Displaced.connect, .greet ⟨0⟩]).Admitted ⟨0⟩ c'
      ⟨role, c.peerKey, permanent, 0⟩
      (((new Displaced.service).run [Displaced.connect, .greet ⟨0⟩]).received ⟨0⟩
        Displaced.initiatorAuth).2 := by
  have hevaluated : (((new Displaced.service).run [Displaced.connect, .greet ⟨0⟩]).client? ⟨0⟩).any
      (fun c => (c.unpack Displaced.initiatorAuth).toOption.map Prod.fst ==
          some (.clientAuth Displaced.initiatorClaim) &&
        (c.authorize Displaced.service Displaced.initiatorClaim).toOption.isSome) = true := by
    decide +kernel
  obtain ⟨c, hc, h⟩ := (Option.any_eq_true _ _).mp hevaluated
  rw [Bool.and_eq_true, beq_iff_eq] at h
  obtain ⟨hread, hauthorized⟩ := h
  obtain ⟨⟨m, c'⟩, hu, hm⟩ := Option.map_eq_some_iff.mp hread
  cases hm
  obtain ⟨d, hd⟩ := Option.isSome_iff_exists.mp hauthorized
  replace hu := toOption_eq_some_iff.mp hu
  obtain ⟨role, permanent, hproves, -⟩ :=
    Client.authorize_iff_proves.mp (toOption_eq_some_iff.mp hd)
  obtain ⟨-, -, hadmitted, -⟩ := credentials_run Displaced.service [Displaced.connect, .greet ⟨0⟩] ⟨0⟩ c c'
    Displaced.initiatorAuth Displaced.initiatorClaim hc hu
  exact ⟨c, c', role, permanent, hc, hu, hproves, hadmitted role permanent hproves⟩

end Relay

end Rendezvous
