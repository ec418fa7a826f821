import Mathlib.Data.List.TakeWhile
import Rendezvous.Proofs.Relay.Accounts

/-!
# What a client is sent, and why

A frame that waits for a writer does not show what is in it or whose it is. The *ledger* of a client
keeps that: it is drawn up from the client's history, and agrees with inbox and outbox after every run.
It also shows that the inbox keeps the order. What others cause for a client is sent in the order in
which it was caused, although some of it passes the inbox by.

* **`Letter`** — what is caused for a client by what happens on its path.
* **`Ledger`**, **`ledger`** — what was sent to a client's writer, and what still waits.
* **`Booked`** — the invariant: the ledger agrees with the client.
* **`booked_run`** — it does after every run.
-/

namespace Rendezvous

/-! ## Letters -/

/-- Something that is caused for a client by what happens on its path. Whoever a message tells of is
found in `seats`. -/
inductive Letter where
  | said (m : Message) (seats : Slots ClientId)
  | relayed (sender : ClientId) (frame : Bytes)

/-- What is left in the inbox, where a letter has to wait. -/
def Letter.delivery : Letter → Delivery
  | .said m _ => .notice m
  | .relayed _ frame => .relayed frame

def Event.letter? : Event → Option Letter
  | .answered auth seats _ => some (.said (.serverAuth auth) seats)
  | .told m seats => some (.said m seats)
  | .relayed sender frame => some (.relayed sender frame)
  | _ => none

def Event.isAnswer : Event → Bool
  | .answered .. => true
  | _ => false

/-- The letters to a client, in the order in which they were caused. -/
def letters (history : List Event) : List Letter :=
  history.filterMap Event.letter?

/-- What a client's writer has got. -/
def Event.taken : Event → List Outbound
  | .collected items | .hungUp items => items
  | _ => []

/-! ## Ledgers -/

/-- Something that was sent to a client's writer. -/
inductive Entry where
  | letter (l : Letter) (frame : Bytes)
  /-- A message that has nothing to do with others. -/
  | reply (m : Message) (frame : Bytes)
  | order (item : Outbound)

namespace Entry

def item : Entry → Outbound
  | .letter _ frame | .reply _ frame => .binary frame
  | .order item => item

def letter? : Entry → Option Letter
  | .letter l _ => some l
  | _ => none

def message? : Entry → Option Message
  | .letter (.said m _) _ | .reply m _ => some m
  | _ => none

def isFrame : Entry → Bool
  | .order _ => false
  | _ => true

def isClose : Entry → Bool
  | .order (.close _) => true
  | _ => false

end Entry

/-- What was sent to a client's writer, and which letters wait in the inbox. -/
structure Ledger where
  sent : List Entry
  waiting : List Letter

namespace Ledger

def empty : Ledger := ⟨[], []⟩

def send (l : Ledger) (x : Entry) : Ledger :=
  { l with sent := l.sent ++ [x] }

def wait (l : Ledger) (letter : Letter) : Ledger :=
  { l with waiting := l.waiting ++ [letter] }

/-- The letter that waited longest is sent in a frame. -/
def pop (l : Ledger) (frame : Bytes) : Ledger :=
  match l.waiting with
  | [] => l
  | letter :: rest => ⟨l.sent ++ [.letter letter frame], rest⟩

def note (l : Ledger) : Event → Ledger
  | .greeted key frame => l.send (.reply (.serverHello key) frame)
  | .answered auth seats frame => l.send (.letter (.said (.serverAuth auth) seats) frame)
  | .refused id frame => l.send (.reply (.sendError id) frame)
  | .posted m frame => l.send (.reply m frame)
  | .ordered item => l.send (.order item)
  | .told m seats => l.wait (.said m seats)
  | .relayed sender frame =>
    match l.waiting with
    | [] => l.send (.letter (.relayed sender frame) frame)
    | _ => l.wait (.relayed sender frame)
  | .served _ frame | .released frame => l.pop frame
  | .cut code => ⟨l.sent ++ [.order (.close code)], []⟩
  | _ => l

theorem note_relayed_of_nil {l : Ledger} (h : l.waiting = []) (sender : ClientId) (frame : Bytes) :
    l.note (.relayed sender frame) = l.send (.letter (.relayed sender frame) frame) := by
  simp only [note, h]

theorem note_relayed_of_ne {l : Ledger} (h : l.waiting ≠ []) (sender : ClientId) (frame : Bytes) :
    l.note (.relayed sender frame) = l.wait (.relayed sender frame) := by
  cases hwaiting : l.waiting with
  | nil => exact absurd hwaiting h
  | cons _ _ => simp only [note, hwaiting]

/-- What was sent before the writer was told to close for the first time. -/
def stream (l : Ledger) : List Entry :=
  l.sent.takeWhile fun x => !x.isClose

end Ledger

/-- The ledger of a client with the given history. -/
def ledger (history : List Event) : Ledger :=
  history.foldl Ledger.note .empty

variable {history es : List Event} {e : Event}

theorem ledger_concat (history : List Event) (e : Event) :
    ledger (history ++ [e]) = (ledger history).note e :=
  List.foldl_concat ..

theorem letters_concat (history : List Event) (e : Event) :
    letters (history ++ [e]) = letters history ++ e.letter?.toList := by
  unfold letters
  rw [List.filterMap_append]
  cases h : e.letter? <;> simp [h]

theorem letters_append (history es : List Event) :
    letters (history ++ es) = letters history ++ letters es :=
  List.filterMap_append

/-! ## The order of letters -/

/-- Letters are sent in the order in which they were caused, and those that were not sent yet wait. Some
are lost where a notice could not be packed, but then the writer is told to close. -/
structure Ordered (history : List Event) : Prop where
  kept : (∀ code, .cut code ∉ history) →
    (ledger history).sent.filterMap Entry.letter? ++ (ledger history).waiting = letters history
  closed : ∀ code, .cut code ∈ history → ∃ x ∈ (ledger history).sent, x.isClose = true
  early : ∀ xs, xs <+: (ledger history).sent → (∀ x ∈ xs, x.isClose = false) →
    xs.filterMap Entry.letter? <+: letters history

namespace Ordered

theorem nil : Ordered [] := by
  refine ⟨fun _ => rfl, nofun, fun xs hxs _ => ?_⟩
  rw [List.prefix_nil.mp hxs]
  exact List.nil_prefix

/-- One more is sent at most. What comes before it was in order already; it itself is so too, unless
letters were lost, and then there is a close order before it. -/
theorem concat (h : Ordered history) (hsent : (ledger (history ++ [e])).sent = (ledger history).sent ∨
      ∃ x, (ledger (history ++ [e])).sent = (ledger history).sent ++ [x])
    (hkept : (∀ code, e ≠ .cut code) →
      (ledger history).sent.filterMap Entry.letter? ++ (ledger history).waiting = letters history →
      (ledger (history ++ [e])).sent.filterMap Entry.letter? ++ (ledger (history ++ [e])).waiting =
        letters (history ++ [e]))
    (hclosed : ∀ code, e = .cut code → ∃ x ∈ (ledger (history ++ [e])).sent, x.isClose = true) :
    Ordered (history ++ [e]) := by
  have hgrown : (ledger history).sent <+: (ledger (history ++ [e])).sent := by
    rcases hsent with heq | ⟨x, heq⟩
    · exact ⟨[], (List.append_nil _).trans heq.symm⟩
    · exact ⟨[x], heq.symm⟩
  have hletters : letters history <+: letters (history ++ [e]) := by
    rw [letters_append]
    exact List.prefix_append ..
  have hkept' : (∀ code, .cut code ∉ history ++ [e]) →
      (ledger (history ++ [e])).sent.filterMap Entry.letter? ++ (ledger (history ++ [e])).waiting =
        letters (history ++ [e]) := by
    intro hcut
    refine hkept (fun code heq => hcut code (heq ▸ List.mem_append_right _ (.head _))) (h.kept ?_)
    exact fun code hmem => hcut code (List.mem_append_left _ hmem)
  have hclosed' : ∀ code, .cut code ∈ history ++ [e] →
      ∃ x ∈ (ledger (history ++ [e])).sent, x.isClose = true := by
    intro code hmem
    rcases List.mem_append.mp hmem with hmem | hmem
    · obtain ⟨x, hx, hclose⟩ := h.closed code hmem
      exact ⟨x, hgrown.subset hx, hclose⟩
    · exact hclosed code (List.mem_singleton.mp hmem).symm
  refine ⟨hkept', hclosed', fun xs hxs hopen => ?_⟩
  -- Either what is looked at was sent before, or it is all that was sent.
  have hcases : xs <+: (ledger history).sent ∨ xs = (ledger (history ++ [e])).sent := by
    rcases hsent with heq | ⟨x, heq⟩
    · rw [heq] at hxs
      exact .inl hxs
    · rw [heq] at hxs ⊢
      exact (List.prefix_concat_iff.mp hxs).symm
  rcases hcases with hbefore | rfl
  · exact (h.early xs hbefore hopen).trans hletters
  · -- Without a close order nothing was lost.
    rw [← hkept' fun code hmem => ?_]
    · exact List.prefix_append ..
    · obtain ⟨x, hx, hclose⟩ := hclosed' code hmem
      exact Bool.false_ne_true ((hopen x hx).symm.trans hclose)

/-- What is sent is no letter. -/
theorem send (h : Ordered history) {x : Entry}
    (hnote : (ledger history).note e = (ledger history).send x) (hletter : e.letter? = none)
    (hx : x.letter? = none) (hcut : ∀ code, e ≠ .cut code) : Ordered (history ++ [e]) := by
  refine h.concat (.inr ⟨x, ?_⟩) (fun _ hkept => ?_) fun code heq => absurd heq (hcut code)
  · rw [ledger_concat, hnote]
    rfl
  · rw [ledger_concat, hnote, letters_concat, hletter, ← hkept]
    simp [Ledger.send, hx]

/-- A letter is sent while nothing waits. -/
theorem sendLetter (h : Ordered history) {l : Letter} {frame : Bytes}
    (hwaiting : (ledger history).waiting = [])
    (hnote : (ledger history).note e = (ledger history).send (.letter l frame))
    (hletter : e.letter? = some l) : Ordered (history ++ [e]) := by
  refine h.concat (.inr ⟨.letter l frame, ?_⟩) (fun _ hkept => ?_) fun code heq => ?_
  · rw [ledger_concat, hnote]
    rfl
  · rw [ledger_concat, hnote, letters_concat, hletter, ← hkept]
    simp [Ledger.send, Entry.letter?, hwaiting]
  · rw [heq] at hletter
    cases hletter

theorem wait (h : Ordered history) {l : Letter}
    (hnote : (ledger history).note e = (ledger history).wait l) (hletter : e.letter? = some l) :
    Ordered (history ++ [e]) := by
  refine h.concat (.inl ?_) (fun _ hkept => ?_) fun code heq => ?_
  · rw [ledger_concat, hnote]
    rfl
  · rw [ledger_concat, hnote, letters_concat, hletter, ← hkept]
    simp [Ledger.wait]
  · rw [heq] at hletter
    cases hletter

theorem pop (h : Ordered history) {frame : Bytes}
    (hnote : (ledger history).note e = (ledger history).pop frame) (hletter : e.letter? = none)
    (hcut : ∀ code, e ≠ .cut code) : Ordered (history ++ [e]) := by
  have hpop : (ledger (history ++ [e])) = (ledger history).pop frame :=
    (ledger_concat history e).trans hnote
  unfold Ledger.pop at hpop
  refine h.concat ?_ (fun _ hkept => ?_) fun code heq => absurd heq (hcut code)
  · rw [hpop]
    split
    · exact .inl rfl
    · exact .inr ⟨_, rfl⟩
  · rw [hpop, letters_concat, hletter, ← hkept]
    split
    · simp
    · next l rest hwaiting => simp [hwaiting, Entry.letter?]

/-- Whatever waits is lost, and the writer is told to close. -/
theorem cut (h : Ordered history) (code : CloseCode) : Ordered (history ++ [.cut code]) := by
  refine h.concat (.inr ⟨.order (.close code), ?_⟩) (fun hcut _ => absurd rfl (hcut code))
    fun _ _ => ⟨.order (.close code), ?_, rfl⟩
  · rw [ledger_concat]
    rfl
  · rw [ledger_concat]
    exact List.mem_append_right _ (.head _)

theorem same (h : Ordered history) (hnote : (ledger history).note e = ledger history)
    (hletter : e.letter? = none) (hcut : ∀ code, e ≠ .cut code) : Ordered (history ++ [e]) := by
  refine h.concat (.inl ?_) (fun _ hkept => ?_) fun code heq => absurd heq (hcut code)
  · rw [ledger_concat, hnote]
  · rw [ledger_concat, hnote, letters_concat, hletter, hkept]
    exact (List.append_nil _).symm

/-- The server's answer is the only letter that does not look whether something waits. -/
theorem note (h : Ordered history) (e : Event)
    (hidle : e.isAnswer = true → (ledger history).waiting = []) : Ordered (history ++ [e]) := by
  cases e with
  | greeted key frame => exact h.send rfl rfl rfl nofun
  | answered auth seats frame => exact h.sendLetter (hidle rfl) rfl rfl
  | refused id frame => exact h.send rfl rfl rfl nofun
  | posted m frame => exact h.send rfl rfl rfl nofun
  | ordered item => exact h.send rfl rfl rfl nofun
  | told m seats => exact h.wait rfl rfl
  | relayed sender frame =>
    cases hwaiting : (ledger history).waiting with
    | nil => exact h.sendLetter hwaiting (Ledger.note_relayed_of_nil hwaiting sender frame) rfl
    | cons l rest => exact h.wait (Ledger.note_relayed_of_ne (by simp [hwaiting]) sender frame) rfl
  | served m frame => exact h.pop rfl rfl nofun
  | released frame => exact h.pop rfl rfl nofun
  | cut code => exact h.cut code
  | _ => exact h.same rfl rfl nofun

/-- What was sent before the first close order are letters that were caused, from the first one on. -/
theorem stream (h : Ordered history) :
    (ledger history).stream.filterMap Entry.letter? <+: letters history := by
  refine h.early _ (List.takeWhile_prefix _) fun x hx => ?_
  have hopen := List.mem_takeWhile_imp hx
  rw [Bool.not_eq_true'] at hopen
  exact hopen

end Ordered

/-! ## Ledgers and clients -/

/-- An outbox has taken in a stream of items: some the writer has got, some wait, and what came when the
writer was gone is lost. -/
def Outbox.Carries (o : Outbox) (taken stream : List Outbound) : Prop :=
  ∃ lost, stream = taken ++ o.items ++ lost ∧ (o.isOpen = true → lost = []) ∧
    (o.isOpen = false → o.items = [])

namespace Outbox.Carries

variable {o : Outbox} {taken stream : List Outbound}

theorem empty : Outbox.empty.Carries [] [] :=
  ⟨[], rfl, fun _ => rfl, nofun⟩

theorem push (h : o.Carries taken stream) (item : Outbound) :
    (o.push item).Carries taken (stream ++ [item]) := by
  obtain ⟨lost, hstream, hopen, hshut⟩ := h
  unfold Outbox.push
  split
  · next ho =>
    refine ⟨[], ?_, fun _ => rfl, fun hfalse => ?_⟩
    · rw [hstream, hopen ho]
      simp
    · exact absurd (ho.symm.trans hfalse) (by decide)
  · next ho =>
    -- Nobody is there to get it.
    refine ⟨lost ++ [item], ?_, fun htrue => absurd htrue ho, hshut⟩
    rw [hstream]
    simp

theorem drain (h : o.Carries taken stream) : o.drain.2.Carries (taken ++ o.items) stream := by
  obtain ⟨lost, hstream, hopen, -⟩ := h
  refine ⟨lost, ?_, hopen, fun _ => rfl⟩
  rw [hstream]
  simp [Outbox.drain]

theorem eq_of_isOpen (h : o.Carries taken stream) (hopen : o.isOpen = true) : taken ++ o.items = stream := by
  obtain ⟨lost, hstream, hnone, -⟩ := h
  rw [hstream, hnone hopen, List.append_nil]

theorem dropWriter (h : o.Carries taken stream) :
    o.dropWriter.Carries (taken ++ o.items) stream := by
  obtain ⟨lost, hstream, -⟩ := h
  refine ⟨lost, ?_, nofun, fun _ => rfl⟩
  rw [hstream]
  simp [Outbox.dropWriter]

end Outbox.Carries

/-- What was sent is what it says: a message that was packed for the client, or a frame as it came. -/
def Entry.Genuine (c : Client) : Entry → Prop
  | .letter (.said m _) frame | .reply m frame => ∃ before address after,
    before.session = c.session ∧ before.cookie = c.cookie ∧
      Client.pack before address m = .ok (frame, after)
  | .letter (.relayed _ bytes) frame => frame = bytes
  | .order item => ∀ frame, item ≠ .binary frame

/-- With which frames the server begins. -/
inductive Begins : Phase → List Entry → Prop where
  | fresh : Begins .fresh []
  | greeted {p : Phase} {key : PublicKey} {frame : Bytes} (hp : p ≠ .fresh)
      (hauth : p.isAuthenticated = false) : Begins p [.reply (.serverHello key) frame]
  | answered {p : Phase} {key : PublicKey} {frame : Bytes} {auth : ServerAuth}
      {seats : Slots ClientId} {frame' : Bytes} {rest : List Entry} (hauth : p.isAuthenticated = true) :
      Begins p (.reply (.serverHello key) frame ::
        .letter (.said (.serverAuth auth) seats) frame' :: rest)

/-- How it goes on does not matter. -/
theorem Begins.append {p : Phase} {l : List Entry} (h : Begins p l) (hauth : p.isAuthenticated = true)
    (more : List Entry) : Begins p (l ++ more) := by
  cases h with
  | fresh => cases hauth
  | greeted _ hfalse => cases hauth.symm.trans hfalse
  | answered => exact .answered hauth

/-- The ledger of a client agrees with the client. -/
structure Booked (c : Client) (history : List Event) : Prop where
  inbox : (ledger history).waiting.map Letter.delivery = c.inbox
  outbox : c.outbox.Carries (history.flatMap Event.taken) ((ledger history).sent.map Entry.item)
  genuine : ∀ x ∈ (ledger history).sent, x.Genuine c
  begins : Begins c.phase ((ledger history).sent.filter Entry.isFrame)
  idle : c.isAuthenticated = false → c.inbox = []
  ordered : Ordered history

namespace Booked

variable {service : Service} {c c' : Client}

theorem newcomer (r : Relay) (path : PathId) (key : PublicKey) (subprotocol : String)
    (draw : Relay.Draw) : Booked (r.newcomer path key subprotocol draw) [.opened draw] :=
  ⟨rfl, .empty, nofun, .fresh, fun _ => rfl, Ordered.nil.same rfl rfl nofun⟩

theorem waiting_eq_nil (h : Booked c history) (hinbox : c.inbox = []) :
    (ledger history).waiting = [] := by
  have hmap := h.inbox
  rw [hinbox, List.map_eq_nil_iff] at hmap
  exact hmap

/-- An event is booked. Whatever is sent by it is the last that was sent. -/
theorem concat (h : Booked c history) (xs : List Entry)
    (hconstant : c'.session = c.session ∧ c'.cookie = c.cookie)
    (hsent : ((ledger history).note e).sent = (ledger history).sent ++ xs)
    (hinbox : ((ledger history).note e).waiting.map Letter.delivery = c'.inbox)
    (houtbox : c'.outbox.Carries (history.flatMap Event.taken ++ e.taken)
      ((ledger history).sent.map Entry.item ++ xs.map Entry.item))
    (hgenuine : ∀ x ∈ xs, x.Genuine c)
    (hbegins : ∀ l, Begins c.phase l → Begins c'.phase (l ++ xs.filter Entry.isFrame))
    (hidle : c'.isAuthenticated = false → c'.inbox = [])
    (hanswered : e.isAnswer = true → c.inbox = []) :
    Booked c' (history ++ [e]) := by
  have hgenuine' : ∀ x : Entry, x.Genuine c → x.Genuine c' := by
    intro x hx
    unfold Entry.Genuine
    rw [hconstant.1, hconstant.2]
    exact hx
  refine ⟨?_, ?_, ?_, ?_, hidle, ?_⟩
  · rw [ledger_concat]
    exact hinbox
  · rw [ledger_concat, hsent, List.flatMap_append, List.flatMap_singleton, List.map_append]
    exact houtbox
  · intro x hx
    rw [ledger_concat, hsent, List.mem_append] at hx
    exact hgenuine' x (hx.elim (h.genuine x) (hgenuine x))
  · rw [ledger_concat, hsent, List.filter_append]
    exact hbegins _ h.begins
  · exact h.ordered.note e fun htrue => h.waiting_eq_nil (hanswered htrue)

/-- Nothing is sent. -/
theorem quiet (h : Booked c history) (hconstant : c'.session = c.session ∧ c'.cookie = c.cookie)
    (hsent : ((ledger history).note e).sent = (ledger history).sent)
    (hinbox : ((ledger history).note e).waiting.map Letter.delivery = c'.inbox)
    (houtbox : c'.outbox.Carries (history.flatMap Event.taken ++ e.taken)
      ((ledger history).sent.map Entry.item))
    (hbegins : ∀ l, Begins c.phase l → Begins c'.phase l)
    (hidle : c'.isAuthenticated = false → c'.inbox = []) (hanswered : e.isAnswer = false) :
    Booked c' (history ++ [e]) := by
  refine h.concat [] hconstant ?_ hinbox ?_ ?_ ?_ hidle ?_
  · rw [hsent, List.append_nil]
  · rw [List.map_nil, List.append_nil]
    exact houtbox
  · exact fun _ hx => absurd hx List.not_mem_nil
  · intro l hl
    rw [List.filter_nil, List.append_nil]
    exact hbegins l hl
  · exact fun htrue => absurd (hanswered.symm.trans htrue) Bool.false_ne_true

/-- Nothing is sent, and nothing new waits. -/
theorem same (h : Booked c history) (hnote : (ledger history).note e = ledger history)
    (htaken : e.taken = []) (hconstant : c'.session = c.session ∧ c'.cookie = c.cookie)
    (hinbox : c'.inbox = c.inbox) (houtbox : c'.outbox = c.outbox)
    (hbegins : ∀ l, Begins c.phase l → Begins c'.phase l)
    (hauth : c'.isAuthenticated = c.isAuthenticated)
    (hanswered : e.isAnswer = false) :
    Booked c' (history ++ [e]) := by
  refine h.quiet hconstant ?_ ?_ ?_ hbegins (fun hfalse => ?_) hanswered
  · rw [hnote]
  · rw [hnote, hinbox]
    exact h.inbox
  · rw [htaken, houtbox, List.append_nil]
    exact h.outbox
  · rw [hinbox]
    exact h.idle (hauth.symm.trans hfalse)

/-- Something is sent, and nothing new waits. -/
theorem send {x : Entry} (h : Booked c history)
    (hnote : (ledger history).note e = (ledger history).send x) (htaken : e.taken = [])
    (hconstant : c'.session = c.session ∧ c'.cookie = c.cookie) (hinbox : c'.inbox = c.inbox)
    (houtbox : c'.outbox = c.outbox.push x.item) (hgenuine : x.Genuine c)
    (hbegins : ∀ l, Begins c.phase l → Begins c'.phase (l ++ [x].filter Entry.isFrame))
    (hidle : c'.isAuthenticated = false → c.inbox = [])
    (hanswered : e.isAnswer = true → c.inbox = []) :
    Booked c' (history ++ [e]) := by
  refine h.concat [x] hconstant ?_ ?_ ?_ ?_ hbegins (fun hfalse => ?_) hanswered
  · rw [hnote]
    rfl
  · rw [hnote, hinbox]
    exact h.inbox
  · rw [htaken, houtbox, List.append_nil]
    exact h.outbox.push x.item
  · intro y hy
    rw [List.mem_singleton.mp hy]
    exact hgenuine
  · rw [hinbox]
    exact hidle hfalse

/-- A letter has to wait. -/
theorem wait {l : Letter} (h : Booked c history) (hauth : c.isAuthenticated = true)
    (hnote : (ledger history).note e = (ledger history).wait l) (htaken : e.taken = [])
    (hanswered : e.isAnswer = false) :
    Booked { c with inbox := c.inbox ++ [l.delivery] } (history ++ [e]) := by
  refine h.quiet ⟨rfl, rfl⟩ ?_ ?_ ?_ (fun _ hl => hl) (fun hfalse => ?_) hanswered
  · rw [hnote]
    rfl
  · rw [hnote, ← h.inbox]
    exact List.map_append
  · rw [htaken, List.append_nil]
    exact h.outbox
  · cases hauth.symm.trans hfalse

/-- The letter that waited longest is sent. -/
theorem pop {d : Delivery} {rest : List Delivery} {frame : Bytes} (h : Booked c history)
    (hinbox : c.inbox = d :: rest) (hnote : (ledger history).note e = (ledger history).pop frame)
    (htaken : e.taken = []) (hconstant : c'.session = c.session ∧ c'.cookie = c.cookie)
    (hphase : c'.phase = c.phase) (hrest : c'.inbox = rest)
    (houtbox : c'.outbox = c.outbox.push (.binary frame))
    (hgenuine : ∀ l : Letter, l.delivery = d → (Entry.letter l frame).Genuine c)
    (hanswered : e.isAnswer = false) :
    Booked c' (history ++ [e]) := by
  have hauth : c.isAuthenticated = true := by
    rw [← Bool.not_eq_false]
    intro hfalse
    cases hinbox.symm.trans (h.idle hfalse)
  -- What is first in the inbox is the first letter that waits.
  have hmap := h.inbox
  rw [hinbox] at hmap
  obtain ⟨l, waiting, hwaiting, hl, hwaiting'⟩ := List.map_eq_cons_iff.mp hmap
  have hpop : (ledger history).note e = ⟨(ledger history).sent ++ [.letter l frame], waiting⟩ := by
    rw [hnote]
    simp only [Ledger.pop, hwaiting]
  refine h.concat [.letter l frame] hconstant ?_ ?_ ?_ ?_ ?_ (fun hfalse => ?_)
    fun htrue => absurd (hanswered.symm.trans htrue) Bool.false_ne_true
  · rw [hpop]
  · rw [hpop, hrest]
    exact hwaiting'
  · rw [htaken, houtbox, List.append_nil]
    exact h.outbox.push _
  · intro y hy
    rw [List.mem_singleton.mp hy]
    exact hgenuine l hl
  · intro l hl
    rw [hphase]
    exact hl.append hauth _
  · rw [Client.isAuthenticated, hphase] at hfalse
    cases hauth.symm.trans hfalse

/-- A message is packed for an authenticated client and sent. -/
theorem reply {c₁ : Client} {address : Address} {m : Message} {frame : Bytes} (h : Booked c history)
    (hauth : c.isAuthenticated = true) (hpack : c.pack address m = .ok (frame, c₁))
    (hnote : (ledger history).note e = (ledger history).send (.reply m frame)) (htaken : e.taken = [])
    (hanswered : e.isAnswer = false) :
    Booked (c₁.push (.binary frame)) (history ++ [e]) := by
  have hgenuine : (Entry.reply m frame).Genuine c := ⟨c, address, c₁, rfl, rfl, hpack⟩
  obtain ⟨next, -, rfl⟩ := Client.eq_of_pack hpack
  exact h.send hnote htaken ⟨rfl, rfl⟩ rfl rfl hgenuine (fun l hl => hl.append hauth _)
    (fun hfalse => h.idle hfalse) fun htrue => absurd (hanswered.symm.trans htrue) Bool.false_ne_true

/-- The writer is told something that is no frame. -/
theorem order {item : Outbound} (h : Booked c history) (hitem : ∀ frame, item ≠ .binary frame) :
    Booked (c.push item) (history ++ [.ordered item]) := by
  refine h.send rfl rfl ⟨rfl, rfl⟩ rfl rfl hitem (fun l hl => ?_) h.idle
    fun htrue => absurd htrue Bool.false_ne_true
  rw [List.filter_cons_of_neg Bool.false_ne_true, List.filter_nil, List.append_nil]
  exact hl

theorem greet {c₁ : Client} {frame : Bytes} (h : Booked c history) (hphase : c.phase = .fresh)
    (hpack : c.pack .server (.serverHello c.session.publicKey) = .ok (frame, c₁)) :
    Booked ({ c₁ with phase := .greeted }.push (.binary frame))
      (history ++ [.greeted c.session.publicKey frame]) := by
  have hgenuine : (Entry.reply (.serverHello c.session.publicKey) frame).Genuine c :=
    ⟨c, .server, c₁, rfl, rfl, hpack⟩
  have hidle : c.inbox = [] := h.idle (by rw [Client.isAuthenticated, hphase]; rfl)
  obtain ⟨next, -, rfl⟩ := Client.eq_of_pack hpack
  refine h.send rfl rfl ⟨rfl, rfl⟩ rfl rfl hgenuine (fun l hl => ?_) (fun _ => hidle)
    fun _ => hidle
  rw [hphase] at hl
  cases hl with
  | fresh => exact .greeted (p := .greeted) (by decide) rfl
  | greeted hne => exact absurd rfl hne
  | answered htrue => cases htrue

theorem answer {c₁ : Client} {a : Admission} {address : Address} {auth : ServerAuth}
    {seats : Slots ClientId} {frame : Bytes} (h : Booked c history) (hphase : c.phase = .admitted a)
    (hpack : c.pack address (.serverAuth auth) = .ok (frame, c₁)) :
    Booked (Relay.seated c₁ a address frame)
      (history ++ .answered auth seats frame :: a.recordPings) := by
  have hgenuine : (Entry.letter (.said (.serverAuth auth) seats) frame).Genuine c :=
    ⟨c, address, c₁, rfl, rfl, hpack⟩
  have hidle : c.inbox = [] := h.idle (by rw [Client.isAuthenticated, hphase]; rfl)
  obtain ⟨next, -, rfl⟩ := Client.eq_of_pack hpack
  have hanswered : Booked
      ({ c with nextNumber := next, phase := .seated a address }.push (.binary frame))
      (history ++ [.answered auth seats frame]) := by
    refine h.send rfl rfl ⟨rfl, rfl⟩ rfl rfl hgenuine (fun l hl => ?_) (fun _ => hidle)
      fun _ => hidle
    rw [hphase] at hl
    cases hl with
    | greeted => exact .answered rfl
    | answered htrue => cases htrue
  rw [← List.singleton_append, ← List.append_assoc]
  unfold Relay.seated Admission.recordPings
  dsimp only
  split
  · rw [List.append_nil]
    exact hanswered
  · exact hanswered.order fun frame heq => by cases heq

theorem serve {m : Message} {rest : List Delivery} {frame : Bytes} {c₁ : Client}
    (h : Booked c history) (hinbox : c.inbox = .notice m :: rest)
    (hsending : c.sending m = .ok (frame, c₁)) :
    Booked ({ c₁ with inbox := rest }.push (.binary frame)) (history ++ [.served m frame]) := by
  obtain ⟨-, hpack⟩ := Client.sending_eq_ok.mp hsending
  have hgenuine : ∀ l : Letter, l.delivery = .notice m → (Entry.letter l frame).Genuine c := by
    intro l hl
    cases l with
    | said => cases hl; exact ⟨c, c.id, c₁, rfl, rfl, hpack⟩
    | relayed => cases hl
  obtain ⟨next, -, rfl⟩ := Client.eq_of_pack hpack
  exact h.pop hinbox rfl rfl ⟨rfl, rfl⟩ rfl rfl rfl hgenuine rfl

theorem release {rest : List Delivery} {frame : Bytes} (h : Booked c history)
    (hinbox : c.inbox = .relayed frame :: rest) :
    Booked ({ c with inbox := rest }.push (.binary frame)) (history ++ [.released frame]) := by
  refine h.pop hinbox rfl rfl ⟨rfl, rfl⟩ rfl rfl rfl (fun l hl => ?_) rfl
  cases l with
  | said => cases hl
  | relayed => cases hl; rfl

theorem cut {code : CloseCode} (h : Booked c history) :
    Booked ({ c with inbox := [] }.close code) (history ++ [.cut code]) := by
  refine h.concat [.order (.close code)] ⟨rfl, rfl⟩ rfl rfl ?_ ?_ (fun l hl => ?_) (fun _ => rfl)
    fun htrue => absurd htrue Bool.false_ne_true
  · rw [show (Event.cut code).taken = [] from rfl, List.append_nil]
    exact h.outbox.push _
  · intro y hy
    rw [List.mem_singleton.mp hy]
    exact fun frame heq => by cases heq
  · rw [List.filter_cons_of_neg Bool.false_ne_true, List.filter_nil, List.append_nil]
    exact hl

/-- The writer has got what waited for it, and is there still or not. -/
theorem take {o : Outbox} (h : Booked c history) (hnote : (ledger history).note e = ledger history)
    (htaken : e.taken = c.outbox.items)
    (houtbox : o.Carries (history.flatMap Event.taken ++ c.outbox.items)
      ((ledger history).sent.map Entry.item))
    (hanswered : e.isAnswer = false) :
    Booked { c with outbox := o } (history ++ [e]) := by
  refine h.quiet ⟨rfl, rfl⟩ ?_ ?_ ?_ (fun _ hl => hl) h.idle hanswered
  · rw [hnote]
  · rw [hnote]
    exact h.inbox
  · rw [htaken]
    exact houtbox

/-- Each step of a client is booked. -/
theorem step (h : Booked c history) (hstep : Client.Step service c es c') :
    Booked c' (history ++ es) := by
  cases hstep with
  | move path =>
    rw [List.append_nil]
    exact ⟨h.inbox, h.outbox, h.genuine, h.begins, h.idle, h.ordered⟩
  | leave =>
    rw [List.append_nil]
    exact ⟨h.inbox, h.outbox, h.genuine, h.begins, h.idle, h.ordered⟩
  | accept => exact h.same rfl rfl ⟨rfl, rfl⟩ rfl rfl (fun _ hl => hl) rfl rfl
  | introduce hok =>
    obtain ⟨hphase, rfl⟩ := Client.introduce_eq_ok.mp hok
    refine h.same rfl rfl ⟨rfl, rfl⟩ rfl rfl (fun l hl => ?_) ?_ rfl
    · rw [hphase] at hl
      cases hl with
      | greeted => exact .greeted (by simp) rfl
      | answered htrue => cases htrue
    · rw [Client.isAuthenticated, Client.isAuthenticated, hphase]
      rfl
  | authorize hok =>
    obtain ⟨role, key, permanent, hclaimed, -, -, -, rfl⟩ := Client.authorize_eq_ok.mp hok
    have hphase : c.phase ≠ .fresh ∧ c.phase.isAuthenticated = false :=
      Client.phase_of_claimed hclaimed
    refine h.same rfl rfl ⟨rfl, rfl⟩ rfl rfl (fun l hl => ?_) hphase.2.symm rfl
    -- Only who was greeted is admitted, and nothing was sent since.
    generalize c.phase = p at hl hphase
    cases hl with
    | fresh => exact absurd rfl hphase.1
    | greeted => exact .greeted (by simp) rfl
    | answered htrue => cases htrue.symm.trans hphase.2
  | drop => exact h.same rfl rfl ⟨rfl, rfl⟩ rfl rfl (fun _ hl => hl) rfl rfl
  | greet hphase hpack => exact h.greet hphase hpack
  | answer hphase hpack => exact h.answer hphase hpack
  | refuse hauth hpack => exact h.reply hauth hpack rfl rfl rfl
  | pack hpack =>
    obtain ⟨next, -, rfl⟩ := Client.eq_of_pack hpack
    exact h.same rfl rfl ⟨rfl, rfl⟩ rfl rfl (fun _ hl => hl) rfl rfl
  | post hsending =>
    obtain ⟨hauth, hpack⟩ := Client.sending_eq_ok.mp hsending
    exact h.reply hauth hpack rfl rfl rfl
  | order hitem => exact h.order hitem
  | tell hauth => exact h.wait (l := .said _ _) hauth rfl rfl rfl
  | pass hauth hinbox =>
    have hnote := Ledger.note_relayed_of_nil (h.waiting_eq_nil hinbox)
    exact h.send (hnote _ _) rfl ⟨rfl, rfl⟩ rfl rfl rfl (fun l hl => hl.append hauth _) h.idle
      fun htrue => absurd htrue Bool.false_ne_true
  | queue hauth hinbox =>
    have hwaiting : (ledger history).waiting ≠ [] := by
      intro hnil
      rw [← h.inbox, hnil] at hinbox
      exact hinbox rfl
    have hnote := Ledger.note_relayed_of_ne hwaiting
    exact h.wait (l := .relayed _ _) hauth (hnote _ _) rfl rfl
  | serve hinbox hsending => exact h.serve hinbox hsending
  | release hinbox => exact h.release hinbox
  | cut => exact h.cut
  | collect => exact h.take rfl rfl h.outbox.drain rfl
  | hangUp => exact h.take rfl rfl h.outbox.dropWriter rfl

end Booked

/-- **Ledgers agree with clients after every run.** -/
theorem Relay.booked_run (service : Service) (actions : List Action) (id : ClientId) :
    (∀ c, ((new service).run actions).client? id = some c →
      Booked c ((new service).history actions id)) ∧
    (((new service).run actions).client? id = none → (new service).history actions id = []) :=
  history_induction (P := Booked) Booked.newcomer (fun _ _ _ _ hstep h => h.step hstep) actions id

end Rendezvous
