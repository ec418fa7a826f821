import Rendezvous.Proofs.Relay.Progress
import Rendezvous.Proofs.Relay.Reception

/-!
# Inboxes keep the order

What other clients cause for a client comes in two ways. A notice always waits in the inbox until it is
packed. A frame is passed on at once, unless something waits, and then it waits behind that. So the inbox
never lets anything overtake, and never loses or doubles anything: what was ever queued is what was
delivered, followed by what waits.

The exception is a notice that cannot be packed. With it goes whatever waits behind it, and the connection is
told to close.

* **`queued`**, **`Ledger.delivered`** — what was ever queued for a client, and what of it was delivered.
* **`queued_eq`** — the first is the second, followed by the inbox.
* **`Client.hand`** — delivering one thing.
* **`Client.afterDelivery_of_handed`**, **`Client.afterDelivery_of_error`** — what a delivery leaves, if all is
  delivered and if a notice cannot be packed.
-/

namespace Rendezvous

/-! ## What was queued and what was delivered -/

/-- What is queued for a client by an event: a notice that is left in its inbox, or a frame that is handed
over to it. -/
def Event.queued? : Event → Option Delivery
  | .told m _ => some (.notice m)
  | .relayed _ frame => some (.relayed frame)
  | _ => none

/-- All that was ever queued for a client, in order. -/
def queued (history : List Event) : List Delivery :=
  history.filterMap Event.queued?

/-- What was queued as a letter. The server's answer was not queued, since it is sent in the same step as it
is caused. -/
def Letter.queued? : Letter → Option Delivery
  | .said (.serverAuth _) _ => none
  | l => some l.delivery

/-- What a client was sent of all that was queued for it, in order. -/
def Ledger.delivered (l : Ledger) : List Delivery :=
  l.sent.filterMap fun x => x.letter?.bind Letter.queued?

section Ledgers

variable {c : Client} {history : List Event} {l : Letter}

theorem Letter.queued?_eq (h : l.isServerAuth = false) : l.queued? = some l.delivery := by
  cases l with
  | said m seats =>
    cases m with
    | serverAuth auth => cases h
    | _ => rfl
  | relayed => rfl

/-- If nobody is told an answer, the letters are the answer and what was queued. -/
theorem queued_eq_letters (h : ∀ m seats, .told m seats ∈ history → m.isServerAuth = false) :
    (letters history).filterMap Letter.queued? = queued history := by
  unfold letters queued
  rw [List.filterMap_filterMap]
  refine List.filterMap_congr fun e he => ?_
  cases e with
  | told m seats => exact Letter.queued?_eq (l := .said m seats) (h m seats he)
  | _ => rfl

/-- No answer waits. -/
theorem isServerAuth_of_waiting (h : ∀ m seats, .told m seats ∈ history → m.isServerAuth = false)
    (hl : l ∈ (ledger history).waiting) : l.isServerAuth = false := by
  induction history using List.reverseRecOn with
  | nil => cases hl
  | append_singleton history e ih =>
    have hbefore := ih fun m seats hmem => h m seats (List.mem_append_left _ hmem)
    rw [ledger_concat] at hl
    rcases Ledger.waiting_note hl with hwaits | hletter
    · exact hbefore hwaits
    · cases e with
      | told m seats =>
        cases hletter
        exact h m seats (List.mem_append_right _ (.head _))
      | relayed =>
        cases hletter
        rfl
      | answered => exact hbefore hl
      | _ => cases hletter

/-- **What was queued is what was delivered, followed by what waits**, unless something was lost. -/
theorem queued_eq (hbooked : Booked c history) (hcut : ∀ code, .cut code ∉ history)
    (htold : ∀ m seats, .told m seats ∈ history → m.isServerAuth = false) :
    queued history = (ledger history).delivered ++ c.inbox := by
  have hwaiting : (ledger history).waiting.filterMap Letter.queued? = c.inbox := by
    rw [← hbooked.inbox, ← List.filterMap_eq_map]
    exact List.filterMap_congr fun l hl => Letter.queued?_eq (isServerAuth_of_waiting htold hl)
  rw [← queued_eq_letters htold, ← hbooked.ordered.kept hcut, List.filterMap_append,
    List.filterMap_filterMap, hwaiting]
  rfl

end Ledgers

/-! ## Delivering -/

namespace Client

variable {c c₁ : Client} {d : Delivery} {pre rest : List Delivery} {e : ProtocolError}

/-- Delivers one thing: a frame as it is, and a notice packed. -/
def hand (c : Client) : Delivery → Except ProtocolError Client
  | .relayed frame => .ok (c.push (.binary frame))
  | .notice m => c.send m

/-- Whatever can be delivered is delivered before the rest is looked at. -/
theorem afterDelivery_append (h : pre.foldlM hand c = .ok c₁) (rest : List Delivery) :
    c.afterDelivery (pre ++ rest) = c₁.afterDelivery rest := by
  induction pre generalizing c with
  | nil => rw [← pure_eq_ok.mp h, List.nil_append]
  | cons d pre ih =>
    obtain ⟨c₂, hd, hpre⟩ := bind_eq_ok.mp h
    rw [List.cons_append, ← ih hpre]
    cases d with
    | relayed frame =>
      cases hd
      rfl
    | notice m =>
      replace hd : c.send m = .ok c₂ := hd
      simp only [afterDelivery, deliverAll, hd]

theorem afterDelivery_of_handed {deliveries : List Delivery} (h : deliveries.foldlM hand c = .ok c₁) :
    c.afterDelivery deliveries = { c₁ with inbox := [] } := by
  rw [← List.append_nil deliveries, afterDelivery_append h]
  rfl

/-- A notice that cannot be packed ends the connection, and with it goes whatever waits. -/
theorem afterDelivery_of_error {m : Message} (h : pre.foldlM hand c = .ok c₁) (hsend : c₁.send m = .error e)
    (rest : List Delivery) :
    c.afterDelivery (pre ++ .notice m :: rest) = { c₁ with inbox := [] }.close e.closeCode := by
  rw [afterDelivery_append h]
  simp only [afterDelivery, deliverAll, hsend]

theorem sending_of_send_error {m : Message} (h : c.send m = .error e) : c.sending m = .error e := by
  rw [send_eq] at h
  cases hs : c.sending m with
  | ok packed =>
    rw [hs] at h
    cases h
  | error e' =>
    rw [hs] at h
    cases h
    rfl

/-- That a notice could not be packed is recorded, behind what was delivered before. -/
theorem cut_mem_recordDelivery {m : Message} (h : pre.foldlM hand c = .ok c₁) (hsend : c₁.send m = .error e)
    (rest : List Delivery) : .cut e.closeCode ∈ c.recordDelivery (pre ++ .notice m :: rest) := by
  induction pre generalizing c with
  | nil =>
    cases pure_eq_ok.mp h
    rw [List.nil_append, recordDelivery, sending_of_send_error hsend]
    exact .head _
  | cons d pre ih =>
    obtain ⟨c₂, hd, hpre⟩ := bind_eq_ok.mp h
    rw [List.cons_append]
    cases d with
    | relayed frame =>
      cases hd
      exact .tail _ (ih hpre)
    | notice n =>
      replace hd : c.send n = .ok c₂ := hd
      rw [send_eq] at hd
      obtain ⟨⟨frame, c₃⟩, hsending, rfl⟩ := map_eq_ok.mp hd
      rw [recordDelivery, hsending]
      exact .tail _ (ih hpre)

/-- Delivering leaves nothing in the inbox. -/
theorem inbox_afterDelivery (deliveries : List Delivery) (c : Client) :
    (c.afterDelivery deliveries).inbox = [] := by
  induction deliveries generalizing c with
  | nil => rfl
  | cons d rest ih =>
    cases d with
    | relayed frame => exact ih (c.push (.binary frame))
    | notice m =>
      cases hsend : c.send m with
      | ok c₁ =>
        have hfirst : [Delivery.notice m].foldlM hand c = .ok c₁ := bind_eq_ok.mpr ⟨c₁, hsend, rfl⟩
        rw [← List.singleton_append, afterDelivery_append hfirst]
        exact ih c₁
      | error e =>
        rw [← List.nil_append (.notice m :: rest), afterDelivery_of_error rfl hsend]
        rfl

theorem afterDelivery_nil (h : c.inbox = []) : c.afterDelivery c.inbox = c := by
  rw [h]
  show { c with inbox := [] } = c
  rw [← h]

/-- Delivering once is delivering for good. -/
theorem afterDelivery_again (c : Client) :
    (c.afterDelivery c.inbox).afterDelivery (c.afterDelivery c.inbox).inbox = c.afterDelivery c.inbox :=
  afterDelivery_nil (inbox_afterDelivery c.inbox c)

/-- Delivering takes nothing from the writer. -/
theorem taken_recordDelivery (deliveries : List Delivery) (c : Client) :
    (c.recordDelivery deliveries).flatMap Event.taken = [] := by
  induction deliveries generalizing c with
  | nil => rfl
  | cons d rest ih =>
    cases d with
    | relayed frame => exact ih (c.push (.binary frame))
    | notice m =>
      rw [recordDelivery]
      split
      · next frame c₁ _ => exact ih (c₁.push (.binary frame))
      · rfl

end Client

end Rendezvous
