import Mathlib.Data.List.Basic

/-!
# Filling a buffer from a stream

A loop that receives chunks until its buffer holds enough, and gives up when the buffer passes a
limit. The stream may be cut into chunks anywhere and receiving may be interrupted. What is enough
is settled by how much of the stream the buffer holds; the end of the chunk that brings it may lie
further on, and the limit is checked there.
-/
namespace Buffered

open List Bool

variable {α : Type*}

inductive Event (α : Type*) where
  | data (chunk : List α)
  | interrupted

def Event.bytes : Event α → List α
  | .data chunk => chunk
  | .interrupted => []

def stream (events : List (Event α)) : List α := events.flatMap Event.bytes

/-- Received chunks are not empty and no longer than the receiver's own buffer. -/
def Chunked (width : Nat) (events : List (Event α)) : Prop :=
  ∀ chunk, Event.data chunk ∈ events → chunk ≠ [] ∧ chunk.length ≤ width

inductive Filled (α : Type*) where
  | filled (buffer : List α) (rest : List (Event α))
  | closed
  | tooLarge

def fill (done : List α → Bool) (limit : Nat) : List α → List (Event α) → Filled α
  | buffer, [] => if done buffer then .filled buffer [] else .closed
  | buffer, event :: events =>
    if done buffer then .filled buffer (event :: events)
    else
      match event with
      | .interrupted => fill done limit buffer events
      | .data chunk =>
        if limit < (buffer ++ chunk).length then .tooLarge
        else fill done limit (buffer ++ chunk) events

@[simp] lemma stream_nil : stream ([] : List (Event α)) = [] := rfl

@[simp] lemma stream_cons (e : Event α) (events : List (Event α)) :
    stream (e :: events) = e.bytes ++ stream events := rfl

@[simp] lemma stream_append (events events' : List (Event α)) :
    stream (events ++ events') = stream events ++ stream events' := by
  simp [stream]

/-- The buffer holds enough of the text `s` from the length `n` on. -/
def Enough (done : List α → Bool) (s : List α) (n : Nat) : Prop :=
  ∀ k ≤ s.length, done (s.take k) = decide (n ≤ k)

section
variable {done : List α → Bool} {limit width n : Nat} {s : List α}

def Ends (limit width n : Nat) (s buffer : List α) : Filled α → Prop
  | .filled result rest =>
    result ++ stream rest = s ∧ Chunked width rest ∧ n ≤ result.length ∧
    (result = buffer ∨ result.length ≤ limit ∧ result.length < n + width)
  | .closed => s.length < n ∧ (s.length = buffer.length ∨ s.length ≤ limit)
  | .tooLarge => buffer.length < n ∧ ∃ k, limit < k ∧ k ≤ s.length ∧ k < n + width

lemma done_of_append (henough : Enough done s n) {buffer : List α} {re : List α}
    (hs : buffer ++ re = s) : done buffer = decide (n ≤ buffer.length) := by
  have ht : s.take buffer.length = buffer := by rw [← hs, take_left']; rfl
  have hl : buffer.length ≤ s.length := by rw [← hs, length_append]; omega
  rw [← ht, henough buffer.length hl, ht]

lemma Chunked.tail {e : Event α} {events : List (Event α)}
    (h : Chunked width (e :: events)) : Chunked width events :=
  fun ch hc => h ch (mem_cons_of_mem e hc)

section
variable (henough : Enough done s n) (events : List (Event α))
include henough

lemma fill_ends (b : List α) (hs : b ++ stream events = s) (hc : Chunked width events) :
    Ends limit width n s b (fill done limit b events) := by
  induction events generalizing b with
  | nil =>
    have hdn := done_of_append henough hs
    simp only [fill, hdn]
    split
    next hn => exact ⟨hs, hc, by simpa using hn, .inl rfl⟩
    next hn =>
      rw [stream_nil, append_nil] at hs
      rw [hs] at hn
      exact ⟨by simpa using hn, .inl (by rw [hs])⟩
  | cons e events ih =>
    have hdn := done_of_append henough hs
    simp only [fill, hdn]
    split
    next hn => exact ⟨hs, hc, by simpa using hn, .inl rfl⟩
    next hn =>
      have hn : b.length < n := by simpa using hn
      cases e with
      | interrupted => exact ih b hs hc.tail
      | data ch =>
        obtain ⟨hne, hw⟩ := hc ch (by simp)
        have hs' : (b ++ ch) ++ stream events = s := by
          rw [append_assoc]
          exact hs
        have hl : (b ++ ch).length ≤ s.length := by
          have := congrArg length hs'
          rw [length_append] at this
          omega
        have hr : (b ++ ch).length < n + width := by
          rw [length_append]
          omega
        simp only
        split
        next ho => exact ⟨hn, _, ho, hl, hr⟩
        next hf =>
          -- from here on the loop starts with the larger buffer
          have hrest := ih (b ++ ch) hs' hc.tail
          cases hfill : fill done limit (b ++ ch) events with
          | filled re rs =>
            rw [hfill] at hrest
            obtain ⟨h1, h2, h3, h4⟩ := hrest
            refine ⟨h1, h2, h3, .inr ?_⟩
            rcases h4 with rfl | h4
            · exact ⟨by omega, hr⟩
            · exact h4
          | closed =>
            rw [hfill] at hrest
            obtain ⟨h1, h2⟩ := hrest
            refine ⟨h1, .inr ?_⟩
            rcases h2 with h2 | h2 <;> omega
          | tooLarge =>
            rw [hfill] at hrest
            exact ⟨hn, hrest.2⟩

theorem fill_append (more : List (Event α)) (b : List α)
    (hs : b ++ stream (events ++ more) = s) (hn : (b ++ stream events).length < n)
    (hl : (b ++ stream events).length ≤ limit) :
    fill done limit b (events ++ more) = fill done limit (b ++ stream events) more := by
  induction events generalizing b with
  | nil => simp
  | cons e events ih =>
    have hdn := done_of_append henough hs
    have hsh : b.length < n := by
      rw [length_append] at hn
      omega
    have hno : done b = false := by
      rw [hdn]
      rw [decide_eq_false_iff_not]
      omega
    simp only [cons_append, fill, hno, false_eq_true, if_false]
    cases e with
    | interrupted =>
      simp only [stream_cons, Event.bytes, nil_append] at hn hl ⊢
      exact ih b hs hn hl
    | data ch =>
      simp only [stream_cons, Event.bytes, ← append_assoc, cons_append]
        at hs hn hl ⊢
      have hf : ¬ limit < (b ++ ch).length := by
        rw [length_append] at hl
        omega
      rw [if_neg hf]
      exact ih (b ++ ch) (by rw [← hs, stream_append]) hn hl

theorem fill_overshoot (ch : List α) (mo : List (Event α)) (b : List α)
    (hs : b ++ stream (events ++ .data ch :: mo) = s)
    (hn : (b ++ stream events).length < n) (hl : (b ++ stream events).length ≤ limit)
    (ho : limit < (b ++ stream events).length + ch.length) :
    fill done limit b (events ++ .data ch :: mo) = .tooLarge := by
  rw [fill_append henough events _ b hs hn hl]
  have hs' : (b ++ stream events) ++ stream (.data ch :: mo) = s := by
    rw [← hs, stream_append, append_assoc]
  have hdn := done_of_append henough hs'
  have hno : done (b ++ stream events) = false := by
    rw [hdn]
    rw [decide_eq_false_iff_not]
    omega
  have hlo : limit < ((b ++ stream events) ++ ch).length := by
    rw [length_append]
    exact ho
  simp only [fill, hno, false_eq_true, if_false, if_pos hlo]

end

end

variable (s : List α)

def bytewise : List (Event α) := s.map fun a => .data [a]

@[simp] lemma stream_bytewise : stream (bytewise s) = s := by
  induction s with
  | nil => rfl
  | cons a s ih =>
    change [a] ++ stream (bytewise s) = a :: s
    rw [ih]
    rfl

lemma chunked_bytewise : Chunked 1 (bytewise s) := by
  intro ch hc
  simp only [bytewise, mem_map, Event.data.injEq] at hc
  obtain ⟨a, _, rfl⟩ := hc
  simp

lemma Chunked.mono {width w' : Nat} {events : List (Event α)} (h : Chunked width events)
    (hl : width ≤ w') : Chunked w' events :=
  fun ch hc => ⟨(h ch hc).1, Nat.le_trans (h ch hc).2 hl⟩

lemma Chunked.append {width : Nat} {events es' : List (Event α)} (h : Chunked width events)
    (h' : Chunked width es') : Chunked width (events ++ es') := by
  intro ch hc
  rcases mem_append.1 hc with hc | hc
  · exact h ch hc
  · exact h' ch hc

theorem fill_bytewise {done : List α → Bool} {limit n : Nat} {s : List α}
    (henough : Enough done s n) (x : List α) (more : List (Event α)) (b : List α)
    (hs : b ++ x ++ stream more = s) (hb : b.length < n)
    (hx : (b ++ x).length = n) (hli : n ≤ limit) :
    fill done limit b (bytewise x ++ more) = .filled (b ++ x) more := by
  have hne : x ≠ [] := by
    rintro rfl
    rw [append_nil] at hx
    omega
  obtain ⟨f, l, rfl⟩ : ∃ f l, x = f ++ [l] :=
    ⟨x.dropLast, x.getLast hne, (dropLast_append_getLast hne).symm⟩
  have hsp : bytewise (f ++ [l]) ++ more = bytewise f ++ (.data [l] :: more) := by
    simp [bytewise]
  have hl : (b ++ f).length + 1 = n := by
    rw [← hx]
    simp only [length_append, length_singleton]
    omega
  have hs' : (b ++ f) ++ stream (.data [l] :: more) = s := by
    rw [← hs]
    simp [Event.bytes]
  rw [hsp, fill_append henough (bytewise f) _ b
    (by rw [stream_append, stream_bytewise, ← append_assoc]; exact hs')
    (by rw [stream_bytewise]; omega) (by rw [stream_bytewise]; omega), stream_bytewise]
  have hn : done (b ++ f) = false := by
    rw [done_of_append henough hs']
    rw [decide_eq_false_iff_not]
    omega
  have hf : ¬ limit < (b ++ (f ++ [l])).length := by
    rw [hx]
    omega
  have hd : done (b ++ (f ++ [l])) := by
    rw [done_of_append henough hs]
    rw [decide_eq_true_eq]
    omega
  simp only [fill, hn, false_eq_true, if_false, if_neg hf, append_assoc]
  cases more with
  | nil => simp [fill, hd]
  | cons e more => simp [fill, hd]

end Buffered
