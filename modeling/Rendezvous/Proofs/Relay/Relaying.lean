import Mathlib.Data.List.Induction
import Rendezvous.Proofs.Frame
import Rendezvous.Proofs.Relay.Channels

/-!
# Where the frames on a connection come from

Whatever happens to a relay, a frame that waits for a client's writer either was packed by the server
for that very client, or was handed over by another client who owned the frame's source, when the
client owned the frame's destination. The frame may have waited in the inbox for any time since.

* **`Client.Packs`** — on the way from one state to another a client is packed a frame, and it is
  queued.
* **`Relay.PackedIn`**, **`Relay.RelayedIn`** — the two origins of a frame, in a run.
* **`sent_run`** — every frame on a connection has one of them, and a frame that is received is relayed
  at most once.
-/

namespace Rendezvous

/-! ## The server's frames -/

namespace Client

/-- On the way from one state of a client to another, in changes of the given kind, the server packs a
frame for the client, and the frame is queued. -/
def Packs (S : Client → Client → Prop) (c : Client) (frame : Bytes) (c' : Client) : Prop :=
  ∃ c₀ destination m c₁, Relation.ReflTransGen S c c₀ ∧ c₀.pack destination m = .ok (frame, c₁) ∧
    Relation.ReflTransGen S (c₁.push (.binary frame)) c'

/-- A frame has the server's address and the cookie that the server has on a client's connection. -/
def FromServer (c : Client) (frame : Bytes) : Prop :=
  ∃ h, Header.parse frame = .ok h ∧ h.source = .server ∧ h.cookie = c.cookie

variable {R : Bytes → Prop} {S : Client → Client → Prop} {c c' c'' : Client} {frame : Bytes}

theorem Packs.tail (h : c.Packs S frame c') (hchange : S c' c'') : c.Packs S frame c'' := by
  obtain ⟨c₀, destination, m, c₁, hbefore, hpack, hafter⟩ := h
  exact ⟨c₀, destination, m, c₁, hbefore, hpack, hafter.tail hchange⟩

theorem fromServer_of_pack {destination : Address} {m : Message}
    (h : c.pack destination m = .ok (frame, c')) : c.FromServer frame := by
  obtain ⟨-, header, payload, next, hheader, -, -, rfl, -⟩ := pack_eq_ok.mp h
  obtain ⟨number, rfl⟩ := Header.layout_of_toOctets hheader
  refine ⟨_, Header.parse_append .., ?_⟩
  rw [Header.ofOctets_layout]
  exact ⟨rfl, rfl⟩

theorem cookie_of_pack {destination : Address} {m : Message}
    (h : c.pack destination m = .ok (frame, c')) : c'.cookie = c.cookie := by
  obtain ⟨-, -, -, -, -, -, -, -, rfl⟩ := pack_eq_ok.mp h
  rfl

theorem Quiet.cookie_eq (h : c.Quiet c') : c'.cookie = c.cookie := by
  cases h with
  | pack hpack => exact cookie_of_pack hpack
  | send hpack =>
    have hpacked := cookie_of_pack hpack
    exact hpacked
  | _ => rfl

theorem Change.cookie_eq (h : Change R c c') : c'.cookie = c.cookie := by
  cases h with
  | quiet h => exact h.cookie_eq
  | _ => rfl

theorem cookie_eq_of_changes (hS : ∀ c c', S c c' → c'.cookie = c.cookie)
    (h : Relation.ReflTransGen S c c') : c'.cookie = c.cookie := by
  induction h with
  | refl => rfl
  | tail _ hchange ih => exact (hS _ _ hchange).trans ih

theorem Packs.fromServer (hS : ∀ c c', S c c' → c'.cookie = c.cookie) (h : c.Packs S frame c') :
    c.FromServer frame := by
  obtain ⟨c₀, destination, m, c₁, hbefore, hpack, -⟩ := h
  obtain ⟨header, hparse, hsource, hcookie⟩ := fromServer_of_pack hpack
  exact ⟨header, hparse, hsource, hcookie.trans (cookie_eq_of_changes hS hbefore)⟩

/-! ## What is queued -/

theorem items_push (c : Client) (item : Outbound) : ∃ items,
    (c.push item).outbox.items = c.outbox.items ++ items ∧ ∀ other ∈ items, other = item := by
  cases hopen : c.outbox.isOpen with
  | true => exact ⟨[item], c.outbox.items_push item hopen, by simp⟩
  | false => exact ⟨[], by simp [push, Outbox.push, hopen], nofun⟩

/-- Only the server's own items were queued for a client. -/
structure Served (c c' : Client) : Prop where
  inbox : c'.inbox = c.inbox
  outbox : ∃ items, c'.outbox.items = c.outbox.items ++ items ∧
    ∀ frame, .binary frame ∈ items → c.Packs Quiet frame c'

theorem Quiet.served (h : c.Quiet c') : c.Served c' := by
  cases h with
  | stand p path gone e => exact ⟨rfl, [], by simp, nofun⟩
  | pack hpack =>
    obtain ⟨-, -, -, -, -, -, -, -, rfl⟩ := pack_eq_ok.mp hpack
    exact ⟨rfl, [], by simp, nofun⟩
  | @send destination m frame d hpack =>
    obtain ⟨items, hitems, heq⟩ := items_push d (.binary frame)
    have hd : d.inbox = c.inbox ∧ d.outbox = c.outbox := by
      obtain ⟨-, -, -, -, -, -, -, -, rfl⟩ := pack_eq_ok.mp hpack
      exact ⟨rfl, rfl⟩
    refine ⟨hd.1, items, by rw [hitems, hd.2], fun frame' hmem => ?_⟩
    cases heq _ hmem
    exact ⟨c, destination, m, d, .refl, hpack, .refl⟩
  | @order item h =>
    obtain ⟨items, hitems, heq⟩ := items_push c item
    exact ⟨rfl, items, hitems, fun frame hmem => absurd (heq _ hmem).symm (h frame)⟩

theorem Quietly.served (h : c.Quietly c') : c.Served c' := by
  induction h with
  | refl => exact ⟨rfl, [], by simp, nofun⟩
  | @tail b d hbefore hquiet ih =>
    obtain ⟨hinbox, items, hitems, hpacks⟩ := ih
    obtain ⟨hinbox', items', hitems', hpacks'⟩ := hquiet.served
    refine ⟨hinbox'.trans hinbox, items ++ items', by rw [hitems', hitems, List.append_assoc], ?_⟩
    intro frame hmem
    rcases List.mem_append.mp hmem with hmem | hmem
    · exact (hpacks frame hmem).tail hquiet
    · obtain ⟨c₀, destination, m, c₁, hbefore', hpack, hafter⟩ := hpacks' frame hmem
      exact ⟨c₀, destination, m, c₁, hbefore.trans hbefore', hpack, hafter⟩

/-- A frame that is queued after a change was queued before, or waited in the inbox, or is relayed or
packed with the change. -/
theorem Change.binary (h : Change R c c') (hf : .binary frame ∈ c'.outbox.items) :
    .binary frame ∈ c.outbox.items ∨ .relayed frame ∈ c.inbox ∨ R frame ∨
      c.Packs (Change R) frame c' := by
  have hpush : ∀ relayed, .binary frame ∈ (c.push (.binary relayed)).outbox.items →
      .binary frame ∈ c.outbox.items ∨ frame = relayed := by
    intro relayed hmem
    obtain ⟨items, hitems, heq⟩ := items_push c (.binary relayed)
    rw [hitems] at hmem
    rcases List.mem_append.mp hmem with hmem | hmem
    · exact .inl hmem
    · cases heq _ hmem
      exact .inr rfl
  cases h with
  | quiet hquiet =>
    obtain ⟨-, items, hitems, hpacks⟩ := hquiet.served
    rw [hitems] at hf
    rcases List.mem_append.mp hf with hf | hf
    · exact .inl hf
    · obtain ⟨c₀, destination, m, c₁, hbefore, hpack, hafter⟩ := hpacks frame hf
      have hlift : ∀ d d', d.Quietly d' → Relation.ReflTransGen (Change R) d d' :=
        Relation.ReflTransGen.mono fun _ _ => .quiet
      exact .inr (.inr (.inr
        ⟨c₀, destination, m, c₁, hlift _ _ hbefore, hpack, hlift _ _ hafter⟩))
  | tell m => exact .inl hf
  | @pass relayed hR hinbox =>
    rcases hpush relayed hf with hf | rfl
    · exact .inl hf
    · exact .inr (.inr (.inl hR))
  | queue hR hinbox => exact .inl hf
  | @release relayed hmem =>
    rcases hpush relayed hf with hf | rfl
    · exact .inl hf
    · exact .inr (.inl hmem)
  | clear => exact .inl hf
  | collect => cases hf
  | hangUp => cases hf

theorem Change.relayed (h : Change R c c') (hf : .relayed frame ∈ c'.inbox) :
    .relayed frame ∈ c.inbox ∨ R frame := by
  cases h with
  | quiet hquiet =>
    rw [hquiet.served.inbox] at hf
    exact .inl hf
  | tell m => exact .inl (by simpa using hf)
  | queue hR hinbox =>
    rcases List.mem_append.mp hf with hf | hf
    · exact .inl hf
    · cases List.mem_singleton.mp hf
      exact .inr hR
  | clear => cases hf
  | _ => exact .inl hf

theorem queued_of_changes (h : Relation.ReflTransGen (Change R) c c') :
    (∀ frame, .binary frame ∈ c'.outbox.items →
      .binary frame ∈ c.outbox.items ∨ .relayed frame ∈ c.inbox ∨ R frame ∨
        c.Packs (Change R) frame c') ∧
    ∀ frame, .relayed frame ∈ c'.inbox → .relayed frame ∈ c.inbox ∨ R frame := by
  induction h with
  | refl => exact ⟨fun frame hf => .inl hf, fun frame hf => .inl hf⟩
  | @tail b d hbefore hchange ih =>
    obtain ⟨hbinary, hrelayed⟩ := ih
    refine ⟨fun frame hf => ?_, fun frame hf => ?_⟩
    · rcases hchange.binary hf with hf | hf | hR | ⟨c₀, destination, m, c₁, hbefore', hpack, hafter⟩
      · rcases hbinary frame hf with hf | hf | hR | hpacks
        · exact .inl hf
        · exact .inr (.inl hf)
        · exact .inr (.inr (.inl hR))
        · exact .inr (.inr (.inr (hpacks.tail hchange)))
      · -- The frame waited, so it had come before or with one of the changes.
        exact .inr ((hrelayed frame hf).imp_right .inl)
      · exact .inr (.inr (.inl hR))
      · exact .inr (.inr (.inr
          ⟨c₀, destination, m, c₁, hbefore.trans hbefore', hpack, hafter⟩))
    · rcases hchange.relayed hf with hf | hR
      · exact hrelayed frame hf
      · exact .inr hR

end Client

/-! ## Runs -/

namespace Relay

/-- The frames that are relayed to a client with an action. -/
def RelayedBy (r : Relay) (a : Action) (d : ClientId) (frame : Bytes) : Prop :=
  ∃ s, a = .receive s frame ∧ r.Handover s d frame

/-- A frame was packed by the server for a client in a run, and queued. -/
def PackedIn (r : Relay) (actions : List Action) (d : ClientId) (frame : Bytes) : Prop :=
  ∃ before a after c c', actions = before ++ a :: after ∧ (r.run before).client? d = some c ∧
    ((r.run before).perform a).client? d = some c' ∧
    c.Packs (Client.Change ((r.run before).RelayedBy a d)) frame c'

/-- A frame was received in a run from a client, who handed it over to another one. -/
def RelayedIn (r : Relay) (actions : List Action) (d : ClientId) (frame : Bytes) : Prop :=
  ∃ before s after, actions = before ++ .receive s frame :: after ∧
    (r.run before).Handover s d frame

variable {r : Relay} {actions : List Action} {d : ClientId} {c c' : Client} {frame : Bytes}

theorem PackedIn.concat (h : r.PackedIn actions d frame) (a : Action) :
    r.PackedIn (actions ++ [a]) d frame := by
  obtain ⟨before, b, after, c, c', rfl, hc, hc', hpacks⟩ := h
  exact ⟨before, b, after ++ [a], c, c', by simp, hc, hc', hpacks⟩

theorem RelayedIn.concat (h : r.RelayedIn actions d frame) (a : Action) :
    r.RelayedIn (actions ++ [a]) d frame := by
  obtain ⟨before, s, after, rfl, hhandover⟩ := h
  exact ⟨before, s, after ++ [a], by simp, hhandover⟩

/-- What waits for a client has an origin in the run: the frames in its outbox and those in its
inbox. -/
structure Originates (r : Relay) (actions : List Action) (d : ClientId) (c : Client) : Prop where
  outbox : ∀ frame, .binary frame ∈ c.outbox.items →
    (r.PackedIn actions d frame ∧ c.FromServer frame) ∨ r.RelayedIn actions d frame
  inbox : ∀ frame, .relayed frame ∈ c.inbox → r.RelayedIn actions d frame

theorem originates_newcomer {path : PathId} {key : PublicKey} {subprotocol : String}
    {draw : Draw} {s : Relay} : r.Originates actions d (s.newcomer path key subprotocol draw) :=
  ⟨fun _ hf => absurd hf List.not_mem_nil, fun _ hf => absurd hf List.not_mem_nil⟩

theorem Originates.concat {a : Action} (h : r.Originates actions d c)
    (hc : (r.run actions).client? d = some c)
    (hc' : ((r.run actions).perform a).client? d = some c')
    (hchanges : Relation.ReflTransGen (Client.Change ((r.run actions).RelayedBy a d)) c c') :
    r.Originates (actions ++ [a]) d c' := by
  obtain ⟨hbinary, hrelayed⟩ := Client.queued_of_changes hchanges
  have hcookie : c'.cookie = c.cookie :=
    Client.cookie_eq_of_changes (fun _ _ => Client.Change.cookie_eq) hchanges
  have hnow : ∀ frame, (r.run actions).RelayedBy a d frame →
      r.RelayedIn (actions ++ [a]) d frame := by
    rintro frame ⟨s, rfl, hhandover⟩
    exact ⟨actions, s, [], rfl, hhandover⟩
  have hserver : ∀ frame, c.FromServer frame → c'.FromServer frame := by
    rintro frame ⟨header, hparse, hsource, hheader⟩
    exact ⟨header, hparse, hsource, hheader.trans hcookie.symm⟩
  -- What is an origin in a run stays one when the run goes on.
  refine ⟨fun frame hf => ?_, fun frame hf => ?_⟩
  · rcases hbinary frame hf with hf | hf | hR | hpacks
    · rcases h.outbox frame hf with ⟨hpacked, hserves⟩ | hin
      · exact .inl ⟨hpacked.concat a, hserver frame hserves⟩
      · exact .inr (hin.concat a)
    · exact .inr ((h.inbox frame hf).concat a)
    · exact .inr (hnow frame hR)
    · have hserves := hpacks.fromServer fun _ _ => Client.Change.cookie_eq
      exact .inl ⟨⟨actions, a, [], c, c', rfl, hc, hc', hpacks⟩, hserver frame hserves⟩
  · rcases hrelayed frame hf with hf | hR
    · exact (h.inbox frame hf).concat a
    · exact hnow frame hR

/-- Induction on the run, whose last action is the step. -/
theorem originates_run (service : Service) (actions : List Action) :
    ∀ d c, ((new service).run actions).client? d = some c →
      (new service).Originates actions d c := by
  induction actions using List.reverseRecOn with
  | nil =>
    intro d c hc
    simp [new, client?] at hc
  | append_singleton actions a ih =>
    intro d c' hc'
    rw [run_concat] at hc'
    have hr := coherent_run service actions
    -- Whoever is accepted has empty channels; all others only change.
    by_cases ha : ∃ key subprotocol draw, a = .accept key subprotocol draw
    · obtain ⟨key, subprotocol, draw, rfl⟩ := ha
      rw [perform, client?_accept] at hc'
      split at hc'
      · cases hc'
        exact originates_newcomer
      · next hne =>
        have hperform := client?_accept ((new service).run actions) key subprotocol draw d
        rw [if_neg hne] at hperform
        exact (ih d c' hc').concat hc' (hperform.trans hc') .refl
    · have hchanges := relays_perform hr a fun key subprotocol draw heq =>
        ha ⟨key, subprotocol, draw, heq⟩
      cases hc : ((new service).run actions).client? d with
      | none => cases (hchanges.none d hc).symm.trans hc'
      | some c =>
        obtain ⟨d', hd', hchange⟩ := hchanges.client d c hc
        cases hd'.symm.trans hc'
        exact (ih d c hc).concat hc hc' hchange

/-- A client after a frame was relayed to it: the frame is queued, or it waits. -/
def Passed (frame : Bytes) (c c' : Client) : Prop :=
  c' = c.push (.binary frame) ∨ c' = { c with inbox := c.inbox ++ [.relayed frame] }

theorem client?_forward (r : Relay) (peer : ClientId) (frame : Bytes) (hc : r.client? d = some c) :
    ∃ c', (if peer = d then Passed frame c c' else c' = c) ∧
      (r.forward peer frame).2.client? d = some c' := by
  unfold forward
  by_cases heq : peer = d
  · subst heq
    rw [hc]
    refine ⟨_, ?_, by rw [client?_setClient, if_pos rfl, hc, Option.map_some]⟩
    rw [if_pos rfl]
    split
    · exact .inl rfl
    · exact .inr rfl
  · refine ⟨c, by rw [if_neg heq], ?_⟩
    split
    · exact hc
    · rw [client?_setClient, if_neg heq, hc]

/-- A frame that is received is relayed to at most one client, and to that one once. -/
theorem served_received (hr : r.census.Coherent) (id : ClientId) (frame : Bytes) :
    ∃ target : Option ClientId, (∀ d ∈ target, r.Handover id d frame) ∧
      ∀ d c, r.client? d = some c → ∃ c₁ c',
        (if target = some d then Passed frame c c₁ else c₁ = c) ∧
        (r.received id frame).2.client? d = some c' ∧ c₁.Served c' := by
  rcases quietly_received hr id frame with hquiet | ⟨peer, hhandover, hquiet⟩
  · refine ⟨none, nofun, fun d c hc => ?_⟩
    obtain ⟨c', hc', hchanges⟩ := hquiet.client d c hc
    exact ⟨c, c', by simp, hc', Client.Quietly.served hchanges⟩
  · refine ⟨some peer, fun d hd => ?_, fun d c hc => ?_⟩
    · cases hd
      exact hhandover
    · obtain ⟨c₁, hpassed, hc₁⟩ := client?_forward r peer frame hc
      obtain ⟨c', hc', hchanges⟩ := hquiet.client d c₁ hc₁
      exact ⟨c₁, c', by simpa using hpassed, hc', Client.Quietly.served hchanges⟩

/-- **Where the frames on a connection come from.** Whatever happens to a relay, a frame in a client's
outbox was packed by the server for that client, with the server's address and cookie; or it was
received before from another client, who was authenticated and had the frame's source as its address,
when the client had the frame's destination on the same path and the other role. A frame that is
received is relayed to at most one client, once; beyond that only frames of the server's are queued. -/
theorem sent_run (service : Service) (actions : List Action) :
    (∀ d c frame, ((new service).run actions).client? d = some c →
      .binary frame ∈ c.outbox.items →
      ((new service).PackedIn actions d frame ∧ c.FromServer frame) ∨
        (new service).RelayedIn actions d frame) ∧
    (∀ s frame, ∃ target : Option ClientId,
      (∀ d ∈ target, ((new service).run actions).Handover s d frame) ∧
      ∀ d c, ((new service).run actions).client? d = some c → ∃ c₁ c',
        (if target = some d then Passed frame c c₁ else c₁ = c) ∧
        (((new service).run actions).received s frame).2.client? d = some c' ∧ c₁.Served c') :=
  ⟨fun d c frame hc hf => (originates_run service actions d c hc).outbox frame hf,
    fun s frame => served_received (coherent_run service actions) s frame⟩

end Relay

end Rendezvous
