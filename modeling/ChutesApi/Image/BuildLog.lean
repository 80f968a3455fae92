import ChutesApi.Image.Model.BuildLog
import ChutesApi.Common.Session
/-!
# Build logs arrive in order, once, and completely

In every run, with any number of clients, requests that break off and
streams that are deleted, the lines a client receives are lines of the build
in the order in which they were appended, none of them twice. And a client
that receives the `DONE` by which the stream is deleted for the first time
has received every line in front of it (`delivered`).

A client is told of the entries `sent` to it. What carries the proof is
where the offsets stand: the entries at or behind an offset are those that
come after what was sent, and, until the stream is deleted, all of them.
-/

namespace ChutesApi

namespace BuildLog

open LogStream

variable {κ : Type}

/-- The place of a line that is data. -/
def Line.place? : Line → Option ℕ
  | .data _ place _ => some place
  | _ => none

/-- The places of some lines. -/
def places (wire : List Line) : List ℕ := wire.filterMap Line.place?

@[simp] theorem places_nil : places [] = [] := rfl

@[simp] theorem places_append (w w' : List Line) : places (w ++ w') = places w ++ places w' :=
  List.filterMap_append

@[simp] theorem places_data {o : StreamId} {p : ℕ} {t : String} {w : List Line} :
    places (.data o p t :: w) = p :: places w := rfl

@[simp] theorem places_done {p : ℕ} {b : Bool} {w : List Line} :
    places (.done p b :: w) = places w := rfl

@[simp] theorem places_waiting {w : List Line} : places (.waiting :: w) = places w := rfl

theorem mem_places {wire : List Line} {p : ℕ} :
    p ∈ places wire ↔ ∃ o t, Line.data o p t ∈ wire := by
  rw [places, List.mem_filterMap]
  constructor
  · rintro ⟨line, hline, hp⟩
    cases line with
    | data o q t =>
      obtain rfl := Option.some.inj hp
      exact ⟨o, t, hline⟩
    | done q b => cases hp
    | waiting => cases hp
  · rintro ⟨o, t, h⟩
    exact ⟨_, h, rfl⟩

namespace Client

/-- The places of the lines a client has received. -/
def told (cl : Client) : List ℕ := cl.received.map Prod.fst

/-- And of those it was sent. -/
def sent (cl : Client) : List ℕ := cl.told ++ places cl.wire

end Client

/-- **The stream's invariant**: ids and places grow together, and until the
stream is deleted it has everything. -/
structure StreamInv (s : State κ) : Prop where
  sorted : s.stream.entries.Pairwise fun a b => a.2.1 < b.2.1
  agree : ∀ a ∈ s.stream.entries, ∀ b ∈ s.stream.entries, a.1 < b.1 ↔ a.2.1 < b.2.1
  last : ∀ e ∈ s.stream.entries, e.1 ≤ s.stream.last
  stored : ∀ e ∈ s.stream.entries, s.produced[e.2.1]? = some e.2.2
  whole : s.deletions = 0 → ∀ p < s.produced.length, ∃ e ∈ s.stream.entries, e.2.1 = p

/-- **An offset stands right**, for the places that were passed: what is at
or behind it comes after them; and until the stream is deleted, what was not
passed is at or behind it. -/
structure Stands (s : State κ) (offset : Option StreamId) (passed : List ℕ) : Prop where
  ahead : ∀ e ∈ s.stream.entries, From offset e.1 → ∀ p ∈ passed, p < e.2.1
  all : s.deletions = 0 → ∀ e ∈ s.stream.entries, e.2.1 ∉ passed → From offset e.1
  within : s.deletions = 0 → ∀ o ∈ offset, o ≤ s.stream.last.next

/-- **A client's invariant.** -/
structure ClientInv (s : State κ) (cl : Client) : Prop where
  /-- What was received stands in the build's log, and so does what is on its way. -/
  received : ∀ r ∈ cl.received, s.produced[r.1]? = some (.log r.2)
  wire : ∀ o p t, Line.data o p t ∈ cl.wire → s.produced[p]? = some (.log t)
  result : ∀ e ∈ cl.streamResult, s.produced[e.2.1]? = some e.2.2
  /-- Everything comes in order. -/
  ordered : (cl.sent ++ cl.streamResult.map fun e => e.2.1).Pairwise (· < ·)
  offset : Stands s cl.offset cl.told
  lastOffset : Stands s cl.lastOffset cl.sent
  /-- The offset that comes with a line is the one behind it. -/
  wireOffset : ∀ o p t, Line.data o p t ∈ cl.wire →
    (∀ e ∈ s.stream.entries, o ≤ e.1 → p < e.2.1) ∧
      (s.deletions = 0 → (∀ e ∈ s.stream.entries, p < e.2.1 → o ≤ e.1) ∧ o ≤ s.stream.last.next)
  resultAhead : ∀ b ∈ cl.streamResult, ∀ e ∈ s.stream.entries, b.1 < e.1 → b.2.1 < e.2.1
  resultNext : s.deletions = 0 → (∀ b ∈ cl.streamResult, b ∈ s.stream.entries) ∧
    ∀ e ∈ s.stream.entries, e.2.1 ∉ cl.sent →
      e ∈ cl.streamResult ∨ ∀ b ∈ cl.streamResult, b.2.1 < e.2.1
  /-- In front of a first `DONE` there is everything. -/
  done : ∀ w w' p, cl.wire = w ++ .done p true :: w' → cl.told ++ places w = List.range p
  finished : ∀ p rs, cl.finished = some (p, true, rs) →
    rs.map Prod.fst = List.range p ∧ ∀ r ∈ rs, s.produced[r.1]? = some (.log r.2)

/-- **The invariant.** -/
structure Inv (s : State κ) : Prop where
  stream : StreamInv s
  client : ∀ c, ClientInv s (s.client c)

variable {s s' : State κ} {cl : Client} {offset : Option StreamId} {passed : List ℕ}

/-! ## The stream's steps -/

theorem StreamInv.place_lt (h : StreamInv s) {e : StreamId × ℕ × Entry}
    (he : e ∈ s.stream.entries) : e.2.1 < s.produced.length :=
  (List.getElem?_eq_some_iff.1 (h.stored e he)).1

/-- What stands in the log still stands there. -/
theorem getElem?_xadd {ms : ℕ} {e e' : Entry} {p : ℕ} (h : s.produced[p]? = some e') :
    (s.xadd ms e).produced[p]? = some e' := by
  have hp := (List.getElem?_eq_some_iff.1 h).1
  rw [State.xadd, List.getElem?_append_left hp, h]

theorem StreamInv.xadd {ms : ℕ} {e : Entry} (h : StreamInv s) : StreamInv (s.xadd ms e) := by
  have hnew : ∀ a ∈ s.stream.entries, a.1 < s.stream.newId ms := fun a ha =>
    (h.last a ha).trans_lt last_lt_newId
  refine ⟨?_, fun a ha b hb => ?_, fun a ha => ?_, fun a ha => ?_, fun hd p hp => ?_⟩
  · refine List.pairwise_append.2 ⟨h.sorted, List.pairwise_singleton _ _, fun a ha b hb => ?_⟩
    rw [List.mem_singleton.1 hb]
    exact h.place_lt ha
  · obtain ha | rfl := mem_append.1 ha <;> obtain hb | rfl := mem_append.1 hb
    · exact h.agree a ha b hb
    · exact iff_of_true (hnew a ha) (h.place_lt ha)
    · exact iff_of_false (hnew b hb).asymm (h.place_lt hb).asymm
    · exact iff_of_false (lt_irrefl _) (lt_irrefl _)
  · obtain ha | rfl := mem_append.1 ha
    · exact (hnew a ha).le
    · exact le_rfl
  · obtain ha | rfl := mem_append.1 ha
    · exact getElem?_xadd (h.stored a ha)
    · simp [State.xadd]
  · rw [State.xadd, List.length_append, List.length_singleton, Nat.lt_succ_iff_lt_or_eq] at hp
    obtain hp | rfl := hp
    · obtain ⟨a, ha, hap⟩ := h.whole hd p hp
      exact ⟨a, mem_append.2 (.inl ha), hap⟩
    · exact ⟨_, mem_append.2 (.inr rfl), rfl⟩

theorem StreamInv.delete : StreamInv s.delete where
  sorted := List.Pairwise.nil
  agree _ h := by cases h
  last _ h := by cases h
  stored _ h := by cases h
  whole h := absurd h (Nat.succ_ne_zero _)

theorem Stands.xadd {ms : ℕ} {e : Entry} (h : Stands s offset passed)
    (hpassed : ∀ p ∈ passed, p < s.produced.length) : Stands (s.xadd ms e) offset passed := by
  have hnext : s.stream.last.next ≤ s.stream.newId ms := StreamId.next_le_iff.2 last_lt_newId
  refine ⟨fun a ha hfrom p hp => ?_, fun hd a ha hout => ?_, fun hd o ho => ?_⟩
  · obtain ha | rfl := mem_append.1 ha
    · exact h.ahead a ha hfrom p hp
    · exact hpassed p hp
  · obtain ha | rfl := mem_append.1 ha
    · exact h.all hd a ha hout
    · exact fun o ho => (h.within hd o ho).trans hnext
  · have hlt : s.stream.newId ms < (s.stream.newId ms).next := StreamId.next_le_iff.1 le_rfl
    exact ((h.within hd o ho).trans hnext).trans hlt.le

theorem Stands.delete : Stands s.delete offset passed where
  ahead _ h := by cases h
  all h := absurd h (Nat.succ_ne_zero _)
  within h := absurd h (Nat.succ_ne_zero _)

/-! ## And to a client that takes no part -/

/-- The places a client knows of are places of the log. -/
theorem ClientInv.lt (h : ClientInv s cl) {p : ℕ} (hp : p ∈ cl.sent) :
    p < s.produced.length := by
  rw [Client.sent, List.mem_append] at hp
  obtain hp | hp := hp
  · obtain ⟨r, hr, rfl⟩ := List.mem_map.1 hp
    exact (List.getElem?_eq_some_iff.1 (h.received r hr)).1
  · obtain ⟨o, t, hline⟩ := mem_places.1 hp
    exact (List.getElem?_eq_some_iff.1 (h.wire o p t hline)).1

theorem ClientInv.xadd {ms : ℕ} {e : Entry} (h : ClientInv s cl) : ClientInv (s.xadd ms e) cl := by
  have hnext : s.stream.last.next ≤ s.stream.newId ms := StreamId.next_le_iff.2 last_lt_newId
  have hbehind : s.stream.newId ms ≤ (s.stream.newId ms).next :=
    (StreamId.next_le_iff.1 le_rfl).le
  refine ⟨fun r hr => getElem?_xadd (h.received r hr),
    fun o p t hline => getElem?_xadd (h.wire o p t hline),
    fun b hb => getElem?_xadd (h.result b hb), h.ordered,
    h.offset.xadd fun p hp => h.lt (List.mem_append_left _ hp),
    h.lastOffset.xadd fun p hp => h.lt hp, fun o p t hline => ?_, fun b hb a ha hlt => ?_,
    fun hd => ⟨fun b hb => mem_append.2 (.inl ((h.resultNext hd).1 b hb)), fun a ha hout => ?_⟩,
    h.done, fun p rs hrs => ⟨(h.finished p rs hrs).1, fun r hr =>
      getElem?_xadd ((h.finished p rs hrs).2 r hr)⟩⟩
  · have hp := (List.getElem?_eq_some_iff.1 (h.wire o p t hline)).1
    obtain ⟨hahead, hall⟩ := h.wireOffset o p t hline
    refine ⟨fun a ha hle => ?_, fun hd => ⟨fun a ha hlt => ?_, ?_⟩⟩
    · obtain ha | rfl := mem_append.1 ha
      · exact hahead a ha hle
      · exact hp
    · obtain ha | rfl := mem_append.1 ha
      · exact (hall hd).1 a ha hlt
      · exact (hall hd).2.trans hnext
    · exact ((hall hd).2.trans hnext).trans hbehind
  · obtain ha | rfl := mem_append.1 ha
    · exact h.resultAhead b hb a ha hlt
    · exact (List.getElem?_eq_some_iff.1 (h.result b hb)).1
  · obtain ha | rfl := mem_append.1 ha
    · exact (h.resultNext hd).2 a ha hout
    · exact .inr fun b hb => (List.getElem?_eq_some_iff.1 (h.result b hb)).1

theorem ClientInv.delete (h : ClientInv s cl) : ClientInv s.delete cl := by
  refine ⟨h.received, h.wire, h.result, h.ordered, .delete, .delete, fun o p t _ => ⟨?_, ?_⟩,
    fun b _ a ha => ?_, fun hd => ?_, h.done, h.finished⟩
  · intro a ha
    cases ha
  · intro hd
    exact absurd hd (Nat.succ_ne_zero _)
  · cases ha
  · exact absurd hd (Nat.succ_ne_zero _)

/-! ## A client's steps -/

theorem ClientInv.reconnect (h : ClientInv s cl) : ClientInv s cl.reconnect := by
  have hsent : cl.reconnect.sent = cl.told := by simp [Client.sent, Client.reconnect, Client.told]
  refine ⟨h.received, fun o p t hline => ?_, fun b hb => ?_, ?_, h.offset, hsent ▸ h.offset,
    fun o p t hline => ?_, fun b hb => ?_, fun hd => ⟨fun b hb => ?_, fun a _ _ => .inr ?_⟩,
    fun w w' p hw => ?_, h.finished⟩
  · cases hline
  · cases hb
  · rw [hsent]
    simp only [Client.reconnect, List.map_nil, List.append_nil]
    exact h.ordered.sublist ((List.sublist_append_left _ _).trans (List.sublist_append_left _ _))
  · cases hline
  · cases hb
  · cases hb
  · intro b hb
    cases hb
  · exact absurd hw (by simp [Client.reconnect])

/-- A line put behind others is the last, or behind one that is there. -/
theorem append_line_eq {wire w w' : List Line} {line d : Line}
    (h : wire ++ [line] = w ++ d :: w') :
    (line = d ∧ wire = w) ∨ ∃ w'', wire = w ++ d :: w'' := by
  rcases List.eq_nil_or_concat w' with rfl | ⟨w'', l, rfl⟩
  · obtain ⟨hwire, hline⟩ := List.append_inj' h rfl
    exact .inl ⟨(List.cons.inj hline).1, hwire⟩
  · rw [List.concat_eq_append, ← List.cons_append, ← List.append_assoc] at h
    exact .inr ⟨w'', (List.append_inj' h rfl).1⟩

theorem ClientInv.wait (h : ClientInv s cl) :
    ClientInv s { cl with wire := cl.wire ++ [.waiting] } := by
  have hsent : ({ cl with wire := cl.wire ++ [.waiting] } : Client).sent = cl.sent := by
    simp [Client.sent, Client.told]
  have hmem : ∀ {o p t}, Line.data o p t ∈ cl.wire ++ [.waiting] → Line.data o p t ∈ cl.wire := by
    intro o p t hline
    simpa using hline
  refine ⟨h.received, fun o p t hline => h.wire o p t (hmem hline), h.result, ?_, h.offset, ?_,
    fun o p t hline => h.wireOffset o p t (hmem hline), h.resultAhead, ?_, fun w w' p hw => ?_,
    h.finished⟩
  · rw [hsent]
    exact h.ordered
  · rw [hsent]
    exact h.lastOffset
  · rw [hsent]
    exact h.resultNext
  · obtain ⟨hline, -⟩ | ⟨w'', hw''⟩ := append_line_eq hw
    · cases hline
    · exact h.done w w'' p hw''

/-- **The loop reads** what comes after all it has sent. -/
theorem ClientInv.xrange (hs : StreamInv s) (h : ClientInv s cl) (hempty : cl.streamResult = []) :
    ClientInv s (cl.xrange s.stream) := by
  unfold Client.xrange
  split
  · exact h.wait
  · next hne =>
    have hmem : ∀ {b}, b ∈ s.stream.range cl.lastOffset ↔
        b ∈ s.stream.entries ∧ From cl.lastOffset b.1 := mem_range
    refine ⟨h.received, h.wire, fun b hb => hs.stored b (hmem.1 hb).1, ?_, h.offset, h.lastOffset,
      h.wireOffset, fun b hb e he => (hs.agree b (hmem.1 hb).1 e he).1,
      fun hd => ⟨fun b hb => (hmem.1 hb).1, fun e he hout => .inl (hmem.2 ⟨he, ?_⟩)⟩, h.done,
      h.finished⟩
    · have hordered := h.ordered
      rw [hempty, List.map_nil, List.append_nil] at hordered
      refine List.pairwise_append.2 ⟨hordered, ?_, fun p hp q hq => ?_⟩
      · exact List.pairwise_map.2 (hs.sorted.sublist List.filter_sublist)
      · obtain ⟨b, hb, rfl⟩ := List.mem_map.1 hq
        exact h.lastOffset.ahead b (hmem.1 hb).1 (hmem.1 hb).2 p hp
    · exact h.lastOffset.all hd e he hout

/-- What is next in order, behind what was sent. -/
theorem ClientInv.head (h : ClientInv s cl) {b : StreamId × ℕ × Entry}
    {rest : List (StreamId × ℕ × Entry)} (hresult : cl.streamResult = b :: rest) :
    (∀ p ∈ cl.sent, p < b.2.1) ∧ ∀ e ∈ rest, b.2.1 < e.2.1 := by
  have hordered := h.ordered
  rw [hresult, List.map_cons, List.pairwise_append, List.pairwise_cons] at hordered
  exact ⟨fun p hp => hordered.2.2 p hp _ List.mem_cons_self,
    fun e he => hordered.2.1.1 _ (List.mem_map_of_mem he)⟩

/-- Until the stream is deleted, what was not sent is next, or behind it. -/
theorem ClientInv.le_of_notMem (h : ClientInv s cl) {b e : StreamId × ℕ × Entry}
    {rest : List (StreamId × ℕ × Entry)} (hresult : cl.streamResult = b :: rest)
    (hd : s.deletions = 0) (he : e ∈ s.stream.entries) (hout : e.2.1 ∉ cl.sent) :
    e = b ∨ b.2.1 < e.2.1 := by
  obtain hmem | hlt := (h.resultNext hd).2 e he hout
  · rw [hresult, List.mem_cons] at hmem
    exact hmem.imp_right fun hmem => (h.head hresult).2 e hmem
  · exact .inr (hlt b (hresult ▸ List.mem_cons_self))

/-- The offset behind the entry that is next stands right once it is sent. -/
theorem ClientInv.stands_next (hs : StreamInv s) (h : ClientInv s cl) {b : StreamId × ℕ × Entry}
    {rest : List (StreamId × ℕ × Entry)} (hresult : cl.streamResult = b :: rest) :
    Stands s (some b.1.next) (cl.sent ++ [b.2.1]) := by
  have hb : b ∈ cl.streamResult := hresult ▸ List.mem_cons_self
  refine ⟨fun e he hfrom p hp => ?_, fun hd e he hout o ho => ?_, fun hd o ho => ?_⟩
  · have hlt : b.2.1 < e.2.1 :=
      h.resultAhead b hb e he (StreamId.next_le_iff.1 (hfrom b.1.next rfl))
    obtain hp | hp := List.mem_append.1 hp
    · exact ((h.head hresult).1 p hp).trans hlt
    · exact List.mem_singleton.1 hp ▸ hlt
  · rw [List.mem_append, List.mem_singleton, not_or] at hout
    have hbe := (h.resultNext hd).1 b hb
    obtain rfl | hlt := h.le_of_notMem hresult hd he hout.1
    · exact absurd rfl hout.2
    · rw [← Option.some.inj ho]
      exact StreamId.next_le_iff.2 ((hs.agree b hbe e he).2 hlt)
  · rw [← Option.some.inj ho]
    have hle := hs.last b ((h.resultNext hd).1 b hb)
    exact StreamId.next_le_iff.2 (hle.trans_lt (StreamId.next_le_iff.1 le_rfl))

theorem ClientInv.send (hs : StreamInv s) (h : ClientInv s cl) {id : StreamId} {p : ℕ} {t : String}
    {rest : List (StreamId × ℕ × Entry)} (hresult : cl.streamResult = (id, p, .log t) :: rest) :
    ClientInv s (cl.send id p t rest) := by
  have hb : (id, p, Entry.log t) ∈ cl.streamResult := hresult ▸ List.mem_cons_self
  have hrest : ∀ b ∈ rest, b ∈ cl.streamResult := fun b hb =>
    hresult ▸ List.mem_cons_of_mem _ hb
  have hsent : (cl.send id p t rest).sent = cl.sent ++ [p] := by
    simp [Client.sent, Client.told, Client.send]
  have hstands := h.stands_next hs hresult
  have hmem : ∀ {o q u}, Line.data o q u ∈ (cl.send id p t rest).wire →
      Line.data o q u ∈ cl.wire ∨ o = id.next ∧ q = p ∧ u = t := by
    intro o q u hline
    obtain hline | hline := List.mem_append.1 hline
    · exact .inl hline
    · obtain ⟨rfl, rfl, rfl⟩ := Line.data.inj (List.mem_singleton.1 hline)
      exact .inr ⟨rfl, rfl, rfl⟩
  refine ⟨h.received, fun o q u hline => ?_, fun b hb => h.result b (hrest b hb), ?_, h.offset,
    hsent ▸ hstands, fun o q u hline => ?_, fun b hb => h.resultAhead b (hrest b hb),
    fun hd => ⟨fun b hb => (h.resultNext hd).1 b (hrest b hb), fun e he hout => ?_⟩,
    fun w w' q hw => ?_, h.finished⟩
  · obtain hline | ⟨rfl, rfl, rfl⟩ := hmem hline
    · exact h.wire o q u hline
    · exact h.result _ hb
  · have hordered := h.ordered
    rw [hresult, List.map_cons] at hordered
    rw [hsent, List.append_assoc]
    exact hordered
  · obtain hline | ⟨rfl, rfl, rfl⟩ := hmem hline
    · exact h.wireOffset o q u hline
    · refine ⟨fun e he hle => h.resultAhead _ hb e he (StreamId.next_le_iff.1 hle),
        fun hd => ⟨fun e he hlt => ?_, hstands.within hd _ rfl⟩⟩
      exact StreamId.next_le_iff.2 ((hs.agree _ ((h.resultNext hd).1 _ hb) e he).2 hlt)
  · rw [hsent, List.mem_append, List.mem_singleton, not_or] at hout
    obtain hmem | hlt := (h.resultNext hd).2 e he hout.1
    · rw [hresult, List.mem_cons] at hmem
      obtain rfl | hmem := hmem
      · exact absurd rfl hout.2
      · exact .inl hmem
    · exact .inr fun b hb => hlt b (hrest b hb)
  · obtain ⟨hline, -⟩ | ⟨w'', hw''⟩ := append_line_eq hw
    · cases hline
    · exact h.done w w'' q hw''

/-- A growing list of the numbers below one is all of them. -/
theorem eq_range {l : List ℕ} {n : ℕ} (h : l.Pairwise (· < ·)) (hmem : ∀ p, p ∈ l ↔ p < n) :
    l = List.range n := by
  refine List.Perm.eq_of_pairwise (fun a b _ _ hab hba => ?_) h List.pairwise_lt_range
    ((List.perm_ext_iff_of_nodup (h.imp Nat.ne_of_lt) List.nodup_range).2 fun p => ?_)
  · exact absurd hab hba.asymm
  · rw [hmem, List.mem_range]

/-- **`DONE` is sent**, and the stream deleted. If it had not been deleted
before, everything in front of it has been sent. -/
theorem ClientInv.sendDone (hs : StreamInv s) (h : ClientInv s cl) {id : StreamId} {p : ℕ}
    {rest : List (StreamId × ℕ × Entry)} (hresult : cl.streamResult = (id, p, .done) :: rest) :
    ClientInv s.delete (cl.sendDone id p (s.deletions = 0)) := by
  have hsent : (cl.sendDone id p (s.deletions = 0)).sent = cl.sent := by
    simp [Client.sent, Client.told, Client.sendDone]
  have hmem : ∀ {o q u}, Line.data o q u ∈ (cl.sendDone id p (s.deletions = 0)).wire →
      Line.data o q u ∈ cl.wire := by
    intro o q u hline
    simpa [Client.sendDone] using hline
  have hsorted : cl.sent.Pairwise (· < ·) :=
    h.ordered.sublist (List.sublist_append_left _ _)
  have hall : s.deletions = 0 → cl.sent = List.range p := by
    intro hd
    refine eq_range hsorted fun q => ⟨fun hq => (h.head hresult).1 q hq, fun hq => ?_⟩
    by_contra hout
    have hp : p < s.produced.length :=
      (List.getElem?_eq_some_iff.1 (h.result _ (hresult ▸ List.mem_cons_self))).1
    obtain ⟨e, he, rfl⟩ := hs.whole hd q (hq.trans hp)
    obtain rfl | hlt := h.le_of_notMem hresult hd he hout
    · exact absurd hq (lt_irrefl _)
    · exact absurd hq hlt.asymm
  refine ⟨h.received, fun o q u hline => h.wire o q u (hmem hline), fun b hb => ?_, ?_, .delete,
    .delete, fun o q u _ => ⟨fun e he => ?_, fun hd => ?_⟩, fun b hb => ?_, fun hd => ?_,
    fun w w' q hw => ?_, h.finished⟩
  · cases hb
  · rw [hsent]
    simp only [Client.sendDone, List.map_nil, List.append_nil]
    exact hsorted
  · cases he
  · exact absurd hd (Nat.succ_ne_zero _)
  · cases hb
  · exact absurd hd (Nat.succ_ne_zero _)
  · obtain ⟨hline, rfl⟩ | ⟨w'', hw''⟩ := append_line_eq hw
    · obtain ⟨rfl, hfirst⟩ := Line.done.inj hline
      exact hall (of_decide_eq_true hfirst)
    · exact h.done w w'' q hw''

/-- A line that is no data, and no `DONE` of interest, is gone. -/
theorem ClientInv.drop (h : ClientInv s cl) {line : Line} {rest : List Line}
    (hwire : cl.wire = line :: rest) (hline : line.place? = none)
    (finished : Option (ℕ × Bool × List (ℕ × String)))
    (hfinished : ∀ p rs, finished = some (p, true, rs) →
      rs.map Prod.fst = List.range p ∧ ∀ r ∈ rs, s.produced[r.1]? = some (.log r.2)) :
    ClientInv s { cl with wire := rest, finished := finished } := by
  have hplaces : places cl.wire = places rest := by
    rw [hwire, places, List.filterMap_cons_none hline, places]
  have hsent : ({ cl with wire := rest, finished := finished } : Client).sent = cl.sent := by
    rw [Client.sent, Client.sent, hplaces]
    rfl
  have hmem : ∀ {o p t}, Line.data o p t ∈ rest → Line.data o p t ∈ cl.wire := fun hdata =>
    hwire ▸ List.mem_cons_of_mem _ hdata
  refine ⟨h.received, fun o p t hdata => h.wire o p t (hmem hdata), h.result, ?_, h.offset, ?_,
    fun o p t hdata => h.wireOffset o p t (hmem hdata), h.resultAhead, ?_, fun w w' p hw => ?_,
    hfinished⟩
  · rw [hsent]
    exact h.ordered
  · rw [hsent]
    exact h.lastOffset
  · rw [hsent]
    exact h.resultNext
  · have hdone := h.done (line :: w) w' p (hwire.trans (congrArg (List.cons line) hw))
    rw [places, List.filterMap_cons_none hline] at hdone
    exact hdone

/-- **A line is received**: the client's offset is now the one behind it. -/
theorem ClientInv.take (h : ClientInv s cl) {o : StreamId} {p : ℕ} {t : String}
    {rest : List Line} (hwire : cl.wire = .data o p t :: rest) :
    ClientInv s { cl with
      offset := some o, received := cl.received ++ [(p, t)], wire := rest } := by
  have hdata : Line.data o p t ∈ cl.wire := hwire ▸ List.mem_cons_self
  have htold : ({ cl with offset := some o, received := cl.received ++ [(p, t)], wire := rest } :
      Client).told = cl.told ++ [p] := by
    simp [Client.told]
  have hsent : ({ cl with offset := some o, received := cl.received ++ [(p, t)], wire := rest } :
      Client).sent = cl.sent := by
    rw [Client.sent, htold, Client.sent, hwire, places_data]
    simp
  have hmem : ∀ {o q u}, Line.data o q u ∈ rest → Line.data o q u ∈ cl.wire := fun hdata =>
    hwire ▸ List.mem_cons_of_mem _ hdata
  have hordered : (cl.told ++ p :: places rest).Pairwise (· < ·) := by
    have := h.ordered.sublist (List.sublist_append_left _ _)
    rwa [Client.sent, hwire, places_data] at this
  obtain ⟨-, hbehind, hcross⟩ := List.pairwise_append.1 hordered
  rw [List.pairwise_cons] at hbehind
  obtain ⟨hahead, hall⟩ := h.wireOffset o p t hdata
  refine ⟨fun r hr => ?_, fun o' q u hdata' => h.wire o' q u (hmem hdata'), h.result, ?_,
    ⟨fun e he hfrom q hq => ?_, fun hd e he hout o' ho' => ?_, fun hd o' ho' => ?_⟩, ?_,
    fun o' q u hdata' => h.wireOffset o' q u (hmem hdata'), h.resultAhead, ?_,
    fun w w' q hw => ?_, h.finished⟩
  · obtain hr | hr := List.mem_append.1 hr
    · exact h.received r hr
    · rw [List.mem_singleton.1 hr]
      exact h.wire o p t hdata
  · rw [hsent]
    exact h.ordered
  · -- what is behind the offset comes after the line, and so after those before it
    have hlt : p < e.2.1 := hahead e he (hfrom o rfl)
    rw [htold, List.mem_append, List.mem_singleton] at hq
    obtain hq | rfl := hq
    · exact (hcross q hq p List.mem_cons_self).trans hlt
    · exact hlt
  · rw [← Option.some.inj ho']
    refine (hall hd).1 e he ?_
    rw [htold, List.mem_append, List.mem_singleton, not_or] at hout
    by_contra hle
    -- an entry in front of the line that was not received is not sent, and so comes after it
    have hlt : e.2.1 < p := lt_of_le_of_ne (not_lt.1 hle) hout.2
    have hnot : e.2.1 ∉ cl.sent := by
      rw [Client.sent, hwire, places_data, List.mem_append, List.mem_cons]
      rintro (hmem | rfl | hmem)
      · exact hout.1 hmem
      · exact lt_irrefl _ hlt
      · exact hlt.asymm (hbehind.1 _ hmem)
    have hsentp : p ∈ cl.sent := by
      rw [Client.sent, hwire, places_data]
      simp
    exact hlt.asymm (h.lastOffset.ahead e he (h.lastOffset.all hd e he hnot) p hsentp)
  · rw [← Option.some.inj ho']
    exact (hall hd).2
  · rw [hsent]
    exact h.lastOffset
  · rw [hsent]
    exact h.resultNext
  · have hdone := h.done (.data o p t :: w) w' q (hwire.trans (congrArg (List.cons _) hw))
    rw [htold, List.append_assoc]
    exact hdone

theorem ClientInv.receive (h : ClientInv s cl) {line : Line} {rest : List Line}
    (hwire : cl.wire = line :: rest) : ClientInv s (cl.receive line rest) := by
  cases line with
  | data o p t => exact h.take hwire
  | waiting => exact h.drop hwire rfl cl.finished h.finished
  | done p first =>
    refine h.drop hwire rfl _ fun q rs hrs => ?_
    rcases hfin : cl.finished with _ | x
    · rw [hfin, Option.none_or, Option.some.injEq] at hrs
      obtain ⟨rfl, hpair⟩ := Prod.mk.inj hrs
      obtain ⟨rfl, rfl⟩ := Prod.mk.inj hpair
      refine ⟨?_, h.received⟩
      have hdone := h.done [] rest p hwire
      rwa [places_nil, List.append_nil] at hdone
    · rw [hfin, Option.some_or, Option.some.injEq] at hrs
      exact h.finished q rs (hfin.trans (congrArg some hrs))

/-! ## The run -/

variable [DecidableEq κ] {as : List (Action κ)}

theorem Inv.put {c : κ} (h : Inv s) (hcl : ClientInv s cl) : Inv (s.put c cl) := by
  refine ⟨⟨h.stream.sorted, h.stream.agree, h.stream.last, h.stream.stored, h.stream.whole⟩,
    fun c' => ?_⟩
  have hput : ClientInv s (Function.update s.client c cl c') := by
    rw [Function.update_apply]
    split
    · exact hcl
    · exact h.client c'
  obtain ⟨h1, h2, h3, h4, h5, h6, h7, h8, h9, h10, h11⟩ := hput
  exact ⟨h1, h2, h3, h4, ⟨h5.ahead, h5.all, h5.within⟩, ⟨h6.ahead, h6.all, h6.within⟩, h7, h8, h9,
    h10, h11⟩

theorem inv_init (h : (system κ).init s) : Inv s := by
  obtain rfl : s = ⟨[], .empty, 0, fun _ => .fresh⟩ := h
  have hstands : Stands (⟨[], .empty, 0, fun _ => .fresh⟩ : State κ) none [] := by
    refine ⟨fun e he => ?_, fun _ e he => ?_, fun _ o ho => ?_⟩
    · cases he
    · cases he
    · cases ho
  refine ⟨⟨.nil, fun a ha => ?_, fun a ha => ?_, fun a ha => ?_, fun _ p hp => ?_⟩, fun c =>
    ⟨fun r hr => ?_, fun o p t hline => ?_, fun b hb => ?_, .nil, hstands, hstands,
      fun o p t hline => ?_, fun b hb => ?_, fun _ => ⟨fun b hb => ?_, fun e he => ?_⟩,
      fun w w' p hw => ?_, fun p rs hrs => ?_⟩⟩
  · cases ha
  · cases ha
  · cases ha
  · cases hp
  · cases hr
  · cases hline
  · cases hb
  · cases hline
  · cases hb
  · cases hb
  · cases he
  · exact absurd hw (by simp [Client.fresh])
  · cases hrs

/-- **The step lemma.** -/
theorem Inv.step {a : Action κ} (h : Inv s) (hs : step s a = some s') : Inv s' := by
  cases a with
  | xadd ms e =>
    obtain rfl := Option.some.inj hs
    exact ⟨h.stream.xadd, fun c => (h.client c).xadd⟩
  | reset =>
    obtain rfl := Option.some.inj hs
    exact ⟨.delete, fun c => (h.client c).delete⟩
  | reconnect c =>
    obtain rfl := Option.some.inj hs
    exact h.put (h.client c).reconnect
  | xrange c =>
    simp only [BuildLog.step, Option.ite_none_right_eq_some, Option.some.injEq] at hs
    obtain ⟨hempty, rfl⟩ := hs
    exact h.put ((h.client c).xrange h.stream hempty)
  | next c =>
    simp only [BuildLog.step] at hs
    split at hs
    · cases hs
    · next id p t rest hresult =>
      obtain rfl := Option.some.inj hs
      exact h.put ((h.client c).send h.stream hresult)
    · next id p rest hresult =>
      obtain rfl := Option.some.inj hs
      have hdelete : Inv s.delete := ⟨.delete, fun c' => (h.client c').delete⟩
      exact hdelete.put ((h.client c).sendDone h.stream hresult)
  | receive c =>
    simp only [BuildLog.step] at hs
    split at hs
    · cases hs
    · next line rest hwire =>
      obtain rfl := Option.some.inj hs
      exact h.put ((h.client c).receive hwire)

theorem inv_of_run (h : (system κ).Run as s) : Inv s :=
  h.invariant (fun _ => inv_init) fun _ _ _ hi _ hs => hi.step hs

/-- The first entries of a list, from those at their places. -/
theorem take_eq_map {α β : Type} {l : List β} {rs : List (ℕ × α)} {f : ℕ × α → β} {n : ℕ}
    (hrange : rs.map Prod.fst = List.range n) (h : ∀ r ∈ rs, l[r.1]? = some (f r)) :
    l.take n = rs.map f := by
  refine List.ext_getElem? fun i => ?_
  have hplace := congrArg (fun l => l[i]?) hrange
  simp only [List.getElem?_map] at hplace ⊢
  rcases lt_or_ge i n with hi | hi
  · rw [List.getElem?_range hi, Option.map_eq_some_iff] at hplace
    obtain ⟨r, hr, rfl⟩ := hplace
    rw [hr, Option.map_some, List.getElem?_take_of_lt hi, h r (List.mem_of_getElem? hr)]
  · have hnone : (List.range n)[i]? = none := List.getElem?_eq_none (by simpa using hi)
    rw [hnone, Option.map_eq_none_iff] at hplace
    rw [hplace, Option.map_none, List.getElem?_eq_none]
    rw [List.length_take]
    omega

/-- **Delivery.** In every run and for every client: what it has received are
lines of the build, in their order and none twice; and if the first `DONE` it
received is the one by which the stream was first deleted, it had received
every line in front of it, and there was nothing else. -/
theorem delivered (h : (system κ).Run as s) (c : κ) :
    ((s.client c).received.map Prod.fst).Pairwise (· < ·) ∧
    (∀ r ∈ (s.client c).received, s.produced[r.1]? = some (.log r.2)) ∧
    ∀ p rs, (s.client c).finished = some (p, true, rs) →
      s.produced.take p = rs.map fun r => .log r.2 := by
  have hinv := (inv_of_run h).client c
  refine ⟨?_, hinv.received, fun p rs hrs => ?_⟩
  · have hsent := hinv.ordered.sublist (List.sublist_append_left _ _)
    exact hsent.sublist (List.sublist_append_left _ _)
  · obtain ⟨hrange, hlogs⟩ := hinv.finished p rs hrs
    exact take_eq_map hrange hlogs

/-! ### A client whose request breaks off -/

/-- Two lines, the second sent twice, and `DONE`. -/
def brokenRequest : List (Action Unit) :=
  [.xadd 5 (.log "a"), .xadd 5 (.log "b"), .xrange (), .next (), .receive (), .next (),
    .reconnect (), .xadd 6 .done, .xrange (), .next (), .next (), .receive (), .receive ()]

def noLines : State Unit := ⟨[], .empty, 0, fun _ => .fresh⟩

def afterBroken : State Unit := (((system Unit).exec noLines brokenRequest).getD noLines)

theorem run_brokenRequest : (system Unit).Run brokenRequest afterBroken :=
  Lts.run_getD_exec (t := noLines) rfl (by decide +kernel)

theorem delivered_brokenRequest :
    ((afterBroken.client ()).received.map Prod.fst).Pairwise (· < ·) ∧
    (∀ r ∈ (afterBroken.client ()).received, afterBroken.produced[r.1]? = some (.log r.2)) ∧
    afterBroken.produced.take 2 = [(0, "a"), (1, "b")].map fun r => .log r.2 := by
  have hfinished : (afterBroken.client ()).finished = some (2, true, [(0, "a"), (1, "b")]) := by
    decide +kernel
  obtain ⟨hordered, hlogs, hall⟩ := delivered run_brokenRequest ()
  exact ⟨hordered, hlogs, hall 2 _ hfinished⟩

end BuildLog

end ChutesApi
