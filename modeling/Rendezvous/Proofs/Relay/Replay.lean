import Mathlib.Algebra.Group.Nat.Defs
import Mathlib.Data.List.Chain
import Rendezvous.Proofs.Relay.Census

/-!
# No frame is accepted twice

A client's frames to the server are numbered. What the next one has to carry is kept in
`Client.expected`, which only an accepted frame changes. So over a whole run, whatever else happens,
the accepted frames of a client carry one cookie and consecutive numbers.

* **`Relay.accepted`** — the frames to the server that a client's connection accepted in a run.
* **`Counted`** — the invariant: these frames are consecutive, and the expectation is the successor of
  the last one.
* **`accepted_run`** — what follows for runs.
-/

namespace Rendezvous

/-! ## The frames that were accepted -/

namespace Relay

/-- The frame to the server that an action brings for a client, if the client accepts it. -/
def accepted? (r : Relay) (id : ClientId) : Action → Option Frame
  | .receive other bytes | .unpack other bytes =>
    if other = id then (r.client? id).bind fun c => c.accepts? bytes else none
  | _ => none

/-- The frames to the server that a client accepts in a run, in their order. -/
def accepted (id : ClientId) : Relay → List Action → List Frame
  | _, [] => []
  | r, a :: rest => (r.accepted? id a).toList ++ accepted id (r.perform a) rest

theorem accepted_append (id : ClientId) (r : Relay) (xs ys : List Action) :
    accepted id r (xs ++ ys) = accepted id r xs ++ accepted id (r.run xs) ys := by
  induction xs generalizing r with
  | nil => rfl
  | cons a rest ih => rw [List.cons_append, accepted, ih, accepted, List.append_assoc, run_cons]

theorem accepted_concat (id : ClientId) (r : Relay) (actions : List Action) (a : Action) :
    accepted id r (actions ++ [a]) =
      accepted id r actions ++ ((r.run actions).accepted? id a).toList := by
  rw [accepted_append, accepted, accepted, List.append_nil]

theorem accepted?_eq_some {r : Relay} {id : ClientId} {a : Action} {f : Frame} :
    r.accepted? id a = some f ↔ ∃ bytes c, (a = .receive id bytes ∨ a = .unpack id bytes) ∧
      r.client? id = some c ∧ c.accepts? bytes = some f := by
  have hframe : ∀ other bytes,
      (if other = id then (r.client? id).bind fun c => c.accepts? bytes else none) = some f ↔
        other = id ∧ ∃ c, r.client? id = some c ∧ c.accepts? bytes = some f := by
    intro other bytes
    split
    · next heq => simp [heq, Option.bind_eq_some_iff]
    · next hne => simp [hne]
  cases a with
  | receive other bytes | unpack other bytes =>
    refine (hframe other bytes).trans ⟨?_, ?_⟩
    · rintro ⟨rfl, c, hc, hf⟩
      exact ⟨bytes, c, by simp, hc, hf⟩
    · rintro ⟨bytes', c, heq | heq, hc, hf⟩ <;> cases heq
      exact ⟨rfl, c, hc, hf⟩
  | _ =>
    constructor
    · intro h
      cases h
    · rintro ⟨bytes, c, heq | heq, -⟩ <;> cases heq

/-- A frame that is not accepted makes no difference to what the next one has to carry. -/
theorem client?_heard (r : Relay) (a : Action) (id : ClientId) :
    (r.accepted? id a = none ∧ (r.heard a).client? id = r.client? id) ∨
    (∃ c f next, r.client? id = some c ∧ r.accepted? id a = some f ∧
      c.acceptHeader f.header = .ok next ∧
      (r.heard a).client? id = some { c with expected := some next }) := by
  -- A frame is counted in the same way whether or not it is handled afterwards.
  have hhear : ∀ other bytes,
      ((if other = id then (r.client? id).bind fun c => c.accepts? bytes else none) = none ∧
        (r.hear other bytes).client? id = r.client? id) ∨
      (∃ c f next, r.client? id = some c ∧
        (if other = id then (r.client? id).bind fun c => c.accepts? bytes else none) = some f ∧
        c.acceptHeader f.header = .ok next ∧
        (r.hear other bytes).client? id = some { c with expected := some next }) := by
    intro other bytes
    by_cases hne : other = id
    · subst hne
      rcases hear_cases r other bytes with ⟨heq, hnone⟩ | ⟨c, f, next, hc, haccepts, haccept, heq⟩
      · refine .inl ⟨?_, by rw [heq]⟩
        rw [if_pos rfl, Option.bind_eq_none_iff]
        exact hnone
      · refine .inr ⟨c, f, next, hc, ?_, haccept, ?_⟩
        · rw [if_pos rfl, hc]
          exact haccepts
        · rw [heq, client?_setClient, if_pos rfl, hc]
          rfl
    · refine .inl ⟨if_neg hne, ?_⟩
      rcases hear_cases r other bytes with ⟨heq, -⟩ | ⟨c, f, next, -, -, -, heq⟩
      · rw [heq]
      · rw [heq, client?_setClient, if_neg hne]
  cases a with
  | receive other bytes => exact hhear other bytes
  | unpack other bytes => exact hhear other bytes
  | _ => exact .inl ⟨rfl, rfl⟩

end Relay

/-! ## Counting -/

/-- A frame has the number after that of another one. -/
def Follows (f g : Frame) : Prop :=
  g.header.number.combined = f.header.number.combined + 1

/-- Frames that were counted from the first one on, and what the next one has to carry. -/
structure Counted (fs : List Frame) (e : Option Expectation) : Prop where
  due : (e.map fun e => (e.cookie, e.number.combined)) =
    fs.getLast?.map fun f => (f.header.cookie, f.header.number.combined + 1)
  cookie : ∀ f ∈ fs, ∀ g ∈ fs, f.header.cookie = g.header.cookie
  start : ∀ f ∈ fs.head?, f.header.number.overflow = 0
  chain : fs.IsChain Follows

namespace Counted

variable {fs : List Frame} {f : Frame}

theorem nil : Counted [] none :=
  ⟨rfl, nofun, nofun, .nil⟩

theorem eq_nil (h : Counted fs none) : fs = [] := by
  have hlast : fs.getLast? = none := Option.map_eq_none_iff.mp h.due.symm
  exact List.getLast?_eq_none_iff.mp hlast

theorem last {e : Expectation} (h : Counted fs (some e)) :
    ∃ l, fs.getLast? = some l ∧ l.header.cookie = e.cookie ∧
      e.number.combined = l.header.number.combined + 1 := by
  have hdue := h.due
  cases hl : fs.getLast? with
  | none => simp [hl] at hdue
  | some l =>
    simp only [hl, Option.map_some, Option.some.injEq, Prod.mk.injEq] at hdue
    exact ⟨l, rfl, hdue.1.symm, hdue.2⟩

/-- **Each accepted frame is counted.** -/
theorem append {c : Client} {next : Expectation} (h : Counted fs c.expected)
    (haccept : c.acceptHeader f.header = .ok next) : Counted (fs ++ [f]) (some next) := by
  obtain ⟨hcookie, hnumber, hcase⟩ := Client.acceptHeader_eq_ok.mp haccept
  have hdue := SequenceNumber.combined_of_next hnumber
  rcases hcase with ⟨hnone, -, hoverflow⟩ | hsome
  · -- It is the first one.
    rw [hnone] at h
    rw [h.eq_nil, List.nil_append]
    exact ⟨by simp [hcookie, hdue], by simp, by simpa using hoverflow, .singleton f⟩
  · rw [hsome] at h
    obtain ⟨l, hl, hlcookie, hlnumber⟩ := h.last
    have hlmem : l ∈ fs := List.mem_of_getLast? hl
    have hsame : ∀ g ∈ fs, g.header.cookie = f.header.cookie := fun g hg =>
      (h.cookie g hg l hlmem).trans hlcookie
    refine ⟨by simp [hcookie, hdue], ?_, ?_, ?_⟩
    · have hcookies : ∀ g ∈ fs ++ [f], g.header.cookie = f.header.cookie := by
        intro g hg
        rcases List.mem_append.mp hg with hg | hg
        · exact hsame g hg
        · rw [List.mem_singleton.mp hg]
      exact fun g hg g' hg' => (hcookies g hg).trans (hcookies g' hg').symm
    · have hne : fs ≠ [] := List.ne_nil_of_mem hlmem
      rw [List.head?_append_of_ne_nil fs hne]
      exact h.start
    · refine List.isChain_append.mpr ⟨h.chain, .singleton f, ?_⟩
      intro x hx y hy
      rw [hl] at hx
      cases hx
      cases hy
      exact hlnumber

theorem cookie_ne {c : Client} {next : Expectation} (h : Counted fs c.expected)
    (hfs : ∀ g ∈ fs, g.header.cookie ≠ c.cookie) (haccept : c.acceptHeader f.header = .ok next) :
    f.header.cookie ≠ c.cookie := by
  obtain ⟨-, -, ⟨-, hne, -⟩ | hsome⟩ := Client.acceptHeader_eq_ok.mp haccept
  · exact hne
  · rw [hsome] at h
    obtain ⟨l, hl, hlcookie, -⟩ := h.last
    exact fun hf => hfs l (List.mem_of_getLast? hl) (hlcookie.trans hf)

/-- Numbers grow, so no frame occurs twice. -/
theorem pairwise (h : Counted fs e) :
    fs.Pairwise fun f g => f.header.number.combined < g.header.number.combined := by
  have hchain : fs.IsChain fun f g => f.header.number.combined < g.header.number.combined :=
    h.chain.imp fun f g hfollows => by
      unfold Follows at hfollows
      omega
  have : Trans (fun f g : Frame => f.header.number.combined < g.header.number.combined)
      (fun f g : Frame => f.header.number.combined < g.header.number.combined)
      (fun f g : Frame => f.header.number.combined < g.header.number.combined) :=
    ⟨fun hab hbc => Nat.lt_trans hab hbc⟩
  exact List.isChain_iff_pairwise.mp hchain

theorem nodup (h : Counted fs e) : fs.Nodup :=
  h.pairwise.imp fun hlt heq => by
    rw [heq] at hlt
    exact Nat.lt_irrefl _ hlt

/-- After the last number that can be sent, what is due is the sentinel. -/
theorem isSentinel {e : Expectation} (h : Counted fs (some e)) (hf : f ∈ fs)
    (hlast : f.header.number.combined = 2 ^ 48 - 2) : e.number.isSentinel = true := by
  obtain ⟨l, hl, -, hnumber⟩ := h.last
  have hle : f.header.number.combined ≤ l.header.number.combined := by
    obtain ⟨front, rfl⟩ := List.getLast?_eq_some_iff.mp hl
    rcases List.mem_append.mp hf with hf | hf
    · have hlt := (List.pairwise_append.mp h.pairwise).2.2 f hf l (List.mem_singleton_self l)
      exact Nat.le_of_lt hlt
    · rw [List.mem_singleton.mp hf]
  have hbound := e.number.combined_lt
  rw [SequenceNumber.isSentinel_iff]
  omega

end Counted

/-- A frame that is due when the numbers are used up is refused. -/
theorem Client.unpack_sentinel {c : Client} {e : Expectation} {bytes : Bytes} {f : Frame}
    (hparse : Frame.parse bytes = .ok f) (hserver : f.header.destination = .server)
    (hsource : f.header.source = c.id) (he : c.expected = some e)
    (hcookie : f.header.cookie = e.cookie) (hsentinel : e.number.isSentinel = true) :
    c.unpack bytes = .error (.overflowSentinel .inbound) := by
  have haccept : c.acceptHeader f.header = .error (.overflowSentinel .inbound) := by
    simp [acceptHeader, he, hcookie, hsentinel, bind, Except.bind, throw, throwThe,
      MonadExceptOf.throw]
  simp [unpack, hparse, hserver, hsource, haccept, ofCodec_ok, bind, Except.bind]

/-! ## Runs -/

/-- A client's accepted frames in a census: they are counted, and their cookie is not the server's. -/
def Census.Tracks (s : Census) (id : ClientId) (fs : List Frame) : Prop :=
  Counted fs ((s.client? id).bind Client.expected) ∧
    ∀ c, s.client? id = some c → ∀ f ∈ fs, f.header.cookie ≠ c.cookie

theorem Census.Tracks.moves {s t : Census} {id : ClientId} {fs : List Frame} (h : s.Tracks id fs)
    (m : Moves s t) : t.Tracks id fs := by
  obtain ⟨hcounted, hcookie⟩ := h
  obtain ⟨hold, hnew⟩ := m.identity id
  cases hs : s.client? id with
  | some c =>
    obtain ⟨c', hc', heq⟩ := hold c hs
    have hexpected : c'.expected = c.expected := by
      show (identity c').expected = (identity c).expected
      rw [heq]
    have hserver : c'.cookie = c.cookie := by
      show (identity c').cookie = (identity c).cookie
      rw [heq]
    rw [hs, Option.bind_some] at hcounted
    refine ⟨by rwa [hc', Option.bind_some, hexpected], fun d hd f hf => ?_⟩
    cases hc'.symm.trans hd
    rw [hserver]
    exact hcookie c hs f hf
  | none =>
    rw [hs, Option.bind_none] at hcounted
    -- Nothing was read from a client that has just come.
    have hexpected : (t.client? id).bind Client.expected = none := by
      cases ht : t.client? id with
      | none => rfl
      | some c => exact hnew hs c ht
    refine ⟨by rwa [hexpected], fun d hd f hf => ?_⟩
    rw [hcounted.eq_nil] at hf
    cases hf

namespace Relay

theorem tracks_perform {r : Relay} {id : ClientId} {fs : List Frame} (h : r.census.Tracks id fs)
    (a : Action) : (r.perform a).census.Tracks id (fs ++ (r.accepted? id a).toList) := by
  refine Census.Tracks.moves ?_ (census_perform r a)
  obtain ⟨hcounted, hcookie⟩ := h
  rcases client?_heard r a id with ⟨hnone, heq⟩ | ⟨c, f, next, hc, hf, haccept, heq⟩
  · have hclient : (r.heard a).census.client? id = r.census.client? id :=
      congrArg (Option.map Client.standing) heq
    rw [hnone, Option.toList_none, List.append_nil]
    exact ⟨by rwa [hclient], by rwa [hclient]⟩
  · have hclient := census_client? hc
    have hheard := census_client? heq
    rw [hclient, Option.bind_some] at hcounted
    rw [hf, Option.toList_some]
    refine ⟨?_, fun d hd g hg => ?_⟩
    · rw [hheard]
      exact hcounted.append haccept
    · cases hheard.symm.trans hd
      rcases List.mem_append.mp hg with hg | hg
      · exact hcookie c.standing hclient g hg
      · rw [List.mem_singleton.mp hg]
        exact hcounted.cookie_ne (hcookie c.standing hclient) haccept

theorem tracks_run {r : Relay} {id : ClientId} {fs : List Frame} (h : r.census.Tracks id fs)
    (actions : List Action) : (r.run actions).census.Tracks id (fs ++ accepted id r actions) := by
  induction actions generalizing r fs with
  | nil =>
    rw [accepted, List.append_nil]
    exact h
  | cons a rest ih =>
    rw [accepted, ← List.append_assoc]
    exact ih (tracks_perform h a)

/-- **No frame is accepted twice.** Over a whole run the frames to the server that a client's connection
accepts carry one cookie, which is not the server's, and start with a number that has not wrapped; each
has the number after that of the one before. Nothing but the last of them determines what the next
frame has to carry. Once the numbers are used up, a frame that is otherwise in order is refused. -/
theorem accepted_run (service : Service) (actions : List Action) (id : ClientId) :
    (∀ f ∈ accepted id (new service) actions, ∀ g ∈ accepted id (new service) actions,
      f.header.cookie = g.header.cookie) ∧
    (∀ c, ((new service).run actions).client? id = some c →
      ∀ f ∈ accepted id (new service) actions, f.header.cookie ≠ c.cookie) ∧
    (∀ f ∈ (accepted id (new service) actions).head?, f.header.number.overflow = 0) ∧
    (accepted id (new service) actions).IsChain
      (fun f g => g.header.number.combined = f.header.number.combined + 1) ∧
    (accepted id (new service) actions).Nodup ∧
    (∀ c, ((new service).run actions).client? id = some c →
      (c.expected.map fun e => (e.cookie, e.number.combined)) =
        (accepted id (new service) actions).getLast?.map
          fun f => (f.header.cookie, f.header.number.combined + 1)) ∧
    (∀ c, ((new service).run actions).client? id = some c →
      ∀ f ∈ accepted id (new service) actions, f.header.number.combined = 2 ^ 48 - 2 →
      ∀ bytes g, Frame.parse bytes = .ok g → g.header.destination = .server →
        g.header.source = c.id → g.header.cookie = f.header.cookie →
        c.unpack bytes = .error (.overflowSentinel .inbound)) := by
  have hnew : (new service).census.Tracks id [] :=
    ⟨by simpa [census, new, client?] using Counted.nil, by simp⟩
  have htracks := tracks_run hnew actions
  rw [List.nil_append] at htracks
  generalize accepted id (new service) actions = fs at htracks ⊢
  generalize (new service).run actions = r at htracks ⊢
  obtain ⟨hcounted, hcookie⟩ := htracks
  have hclient : ∀ c, r.client? id = some c → Counted fs c.expected := by
    intro c hc
    rw [census_client? hc] at hcounted
    exact hcounted
  refine ⟨hcounted.cookie, fun c hc => hcookie c.standing (census_client? hc), hcounted.start,
    hcounted.chain, hcounted.nodup, fun c hc => (hclient c hc).due, ?_⟩
  intro c hc f hf hlast bytes g hparse hserver hsource hgf
  have hc' := hclient c hc
  cases he : c.expected with
  | none =>
    rw [he] at hc'
    rw [hc'.eq_nil] at hf
    cases hf
  | some e =>
    rw [he] at hc'
    obtain ⟨l, hl, hlcookie, -⟩ := hc'.last
    have hcookie : g.header.cookie = e.cookie :=
      (hgf.trans (hc'.cookie f hf l (List.mem_of_getLast? hl))).trans hlcookie
    exact Client.unpack_sentinel hparse hserver hsource he hcookie (hc'.isSentinel hf hlast)

end Relay

end Rendezvous
