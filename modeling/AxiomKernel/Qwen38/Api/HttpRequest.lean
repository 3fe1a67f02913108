import AxiomKernel.Lib.Buffered
import AxiomKernel.Lib.Search
import AxiomKernel.Qwen38.Api.Compaction
import AxiomKernel.Qwen38.SessionStore.Key

/-!
# Reading an HTTP request

`read_request` fills one buffer from the socket: first until it holds the blank line behind the
header, then until it holds the body the header announces. Both loops check the size of the whole
buffer after every chunk, although a chunk may bring bytes behind the part they wait for.
-/
namespace AxiomKernel.Qwen38.Api

open Buffered Search Text Image SessionStore List Option

def kMaxHeaderBytes : Nat := 64 * 1024
def kMaxBodyBytes : Nat := 64 * 1024 * 1024

def kChunkBytes : Nat := 8192

def crlf : Bytes := [13, 10]
def terminator : Bytes := [13, 10, 13, 10]

def isBlank (ch : UInt8) : Bool := ch == 32 || ch == 9

variable (text : Bytes)

def trimAscii : Bytes := ((text.dropWhile isBlank).reverse.dropWhile isBlank).reverse

def parseSize : Option Nat :=
  if text.isEmpty then none
  else
    text.foldlM (fun value ch =>
      if isDigit ch = false ∨ (2 ^ 64 - 1 - (ch.toNat - 48)) / 10 < value then none
      else some (value * 10 + (ch.toNat - 48))) 0

structure Head where
  method : Bytes
  path : Bytes
  sessionId : Bytes := []
  contentLength : Nat := 0
  haveContentLength : Bool := false
  deriving Repr, DecidableEq

def parseRequestLine (line : Bytes) : Option Head := do
  let firstSpace ← find [32] line
  let secondSpace ← (find [32] (line.drop (firstSpace + 1))).map (· + (firstSpace + 1))
  if line.drop (secondSpace + 1) ≠ ascii "HTTP/1.1" then none
  else
    let target := (line.drop (firstSpace + 1)).take (secondSpace - firstSpace - 1)
    -- the query is cut off
    let path := match find [63] target with
      | some query => target.take query
      | none => target
    some { method := line.take firstSpace, path }

def parseField (head : Head) (line : Bytes) : Option Head :=
  match find [58] line with
  | none => none
  | some 0 => none
  | some colon =>
    let name := asciiLower (line.take colon)
    let value := trimAscii (line.drop (colon + 1))
    if name = ascii "content-length" then
      if head.haveContentLength then none
      else (parseSize value).map fun contentLength =>
        { head with contentLength, haveContentLength := true }
    else if name = ascii "x-axiom-session-id" then
      if head.sessionId ≠ [] then none
      else if validSessionId value then some { head with sessionId := value }
      else none
    else if name = ascii "transfer-encoding" then none
    else some head

def cutLine : Bytes × Bytes :=
  match find crlf text with
  | some i => (text.take i, text.drop (i + 2))
  | none => (text, [])

lemma cutLine_shorter {text : Bytes} (h : text ≠ []) : (cutLine text).2.length < text.length := by
  have hp : 0 < text.length := length_pos_of_ne_nil h
  unfold cutLine
  split
  · rw [length_drop]
    omega
  · exact hp

def parseFields (head : Head) (text : Bytes) : Option Head :=
  if _h : text = [] then some head
  else
    match parseField head (cutLine text).1 with
    | none => none
    | some head => parseFields head (cutLine text).2
termination_by text.length
decreasing_by exact cutLine_shorter _h

/-- The header before the blank line; `none` is a rejection with status 400. -/
def parseHead (header : Bytes) : Option Head :=
  (parseRequestLine (cutLine header).1).bind fun head => parseFields head (cutLine header).2

structure HttpRequest where
  method : Bytes
  path : Bytes
  body : Bytes
  sessionId : Bytes
  deriving Repr, DecidableEq

inductive Outcome where
  | accepted (request : HttpRequest)
  | rejected (status : Nat)
  deriving Repr, DecidableEq

def holdsHeader (buffer : Bytes) : Bool := (find terminator buffer).isSome

/-- The second loop of `read_request` and what follows it. -/
def readBody (head : Head) (bodyStart : Nat) (buffer : Bytes) (events : List (Event UInt8)) :
    Outcome :=
  match fill (fun bytes => bodyStart + head.contentLength ≤ bytes.length)
      (bodyStart + kMaxBodyBytes) buffer events with
  | .filled bytes _ =>
    .accepted
      { method := head.method
        path := head.path
        body := (bytes.drop bodyStart).take head.contentLength
        sessionId := head.sessionId }
  | .closed => .rejected 400
  | .tooLarge => .rejected 413

/-- `read_request` on a buffer that holds the header. -/
def readBuffered (headerEnd : Nat) (buffer : Bytes) (events : List (Event UInt8)) : Outcome :=
  match parseHead (buffer.take headerEnd) with
  | none => .rejected 400
  | some head =>
    if kMaxBodyBytes < head.contentLength then .rejected 413
    else readBody head (headerEnd + 4) buffer events

variable (events : List (Event UInt8))

def readRequest : Outcome :=
  match fill holdsHeader kMaxHeaderBytes [] events with
  | .closed => .rejected 400
  | .tooLarge => .rejected 413
  | .filled buffer rest =>
    match find terminator buffer with
    | none => .rejected 400
    | some headerEnd => readBuffered headerEnd buffer rest

/-- The stream arrives in chunks as `recv` can return them, with interruptions anywhere. -/
structure Delivers (s : Bytes) : Prop where
  chunked : Chunked kChunkBytes events
  stream : Buffered.stream events = s

lemma terminator_ne_nil : terminator ≠ [] := by decide

variable {s : Bytes} {e : Nat}

lemma enough_header (h : find terminator s = some e) : Enough holdsHeader s (e + 4) := by
  intro k _
  exact find_take_isSome terminator_ne_nil h k

lemma enough_no_header (h : find terminator s = none) : Enough holdsHeader s (s.length + 1) := by
  intro k hk
  rw [holdsHeader, find_take_none terminator_ne_nil h]
  rw [isSome_none]
  exact (decide_eq_false (by omega)).symm

lemma enough_body (n : Nat) (s : Bytes) :
    Enough (fun bs : Bytes => decide (n ≤ bs.length)) s n := by
  intro k hk
  simp [min_eq_left hk]

lemma find_of_append {buffer : Bytes} {re : Bytes} (h : find terminator s = some e)
    (hs : buffer ++ re = s) (hl : e + 4 ≤ buffer.length) :
    find terminator buffer = some e ∧ buffer.take e = s.take e := by
  have ht : s.take buffer.length = buffer := by rw [← hs, take_left']; rfl
  constructor
  · rw [← ht, find_take terminator_ne_nil, h, bind_some, if_pos]
    exact hl
  · rw [← ht, take_take]
    congr 1
    omega

/-- The outcome a request with its whole body, or a stream that ends before, should have. -/
def framed (s : Bytes) (bodyStart : Nat) (head : Head) : Outcome :=
  if s.length < bodyStart + head.contentLength then .rejected 400
  else .accepted
    { method := head.method
      path := head.path
      body := (s.drop bodyStart).take head.contentLength
      sessionId := head.sessionId }

def ideal (s : Bytes) : Outcome :=
  match find terminator s with
  | none => if kMaxHeaderBytes < s.length then .rejected 413 else .rejected 400
  | some e =>
    if kMaxHeaderBytes < e + 4 then .rejected 413
    else
      match parseHead (s.take e) with
      | none => .rejected 400
      | some head =>
        if kMaxBodyBytes < head.contentLength then .rejected 413 else framed s (e + 4) head

/-- The body loop takes the announced bytes, unless a chunk passes the limit. -/
lemma readBody_cases {b : Bytes} {re : List (Event UInt8)} {wi : Nat} (he : Head)
    (bs : Nat) (hs : b ++ stream re = s) (hc : Chunked wi re)
    (hb : bs ≤ b.length) :
    readBody he bs b re = framed s bs he ∨
    (readBody he bs b re = .rejected 413 ∧ 0 < he.contentLength ∧
    ∃ k, bs + kMaxBodyBytes < k ∧ k ≤ s.length ∧
    k < bs + he.contentLength + wi) := by
  have hen : Ends (bs + kMaxBodyBytes) wi (bs + he.contentLength) s b _ :=
    fill_ends (enough_body (bs + he.contentLength) s) re b hs hc
  unfold readBody framed
  cases hfill : fill (fun byt : Bytes => decide (bs + he.contentLength ≤ byt.length))
      (bs + kMaxBodyBytes) b re with
  | closed =>
    rw [hfill] at hen
    exact .inl (if_pos hen.1).symm
  | tooLarge =>
    rw [hfill] at hen
    obtain ⟨hsh, hk⟩ := hen
    exact .inr ⟨rfl, by omega, hk⟩
  | filled rs l =>
    rw [hfill] at hen
    obtain ⟨hr, _, hlo, _⟩ := hen
    have hl : rs.length ≤ s.length := by
      rw [← hr, length_append]
      omega
    left
    rw [if_neg (by omega), ← hr]
    -- the announced bytes lie in the part that has arrived
    simp only
    rw [drop_append_of_le_length (by omega), take_append_of_le_length]
    rw [length_drop]
    omega

variable {events : List (Event UInt8)}

/-- The outcome of a reading is the ideal one, unless a chunk passes one of the limits. -/
lemma readRequest_cases {wi : Nat} (hc : Chunked wi events)
    (hst : stream events = s) : readRequest events = ideal s ∨
    (readRequest events = .rejected 413 ∧ ∃ e, find terminator s = some e ∧
    e + 4 ≤ kMaxHeaderBytes ∧ ((∃ k, kMaxHeaderBytes < k ∧ k ≤ s.length ∧ k < e + 4 + wi) ∨
    ∃ he, parseHead (s.take e) = some he ∧ he.contentLength ≤ kMaxBodyBytes ∧
    0 < he.contentLength ∧ ∃ k, e + 4 + kMaxBodyBytes < k ∧ k ≤ s.length ∧
    k < e + 4 + he.contentLength + wi)) := by
  have hs : [] ++ stream events = s := hst
  unfold readRequest ideal
  cases hfind : find terminator s with
  | none =>
    have hen : Ends kMaxHeaderBytes wi (s.length + 1) s [] _ :=
      fill_ends (enough_no_header hfind) events [] hs hc
    cases hfill : fill holdsHeader kMaxHeaderBytes [] events with
    | closed =>
      rw [hfill] at hen
      have hsh : ¬ kMaxHeaderBytes < s.length := by
        rcases hen.2 with h | h
        · rw [h]
          simp
        · omega
      exact .inl (if_neg hsh).symm
    | tooLarge =>
      rw [hfill] at hen
      obtain ⟨_, k, hk, hks, _⟩ := hen
      exact .inl (if_pos (by omega)).symm
    | filled rs re =>
      rw [hfill] at hen
      obtain ⟨hr, _, hlo, _⟩ := hen
      have := congrArg length hr
      rw [length_append] at this
      omega
  | some e =>
    have hen : Ends kMaxHeaderBytes wi (e + 4) s [] _ :=
      fill_ends (enough_header hfind) events [] hs hc
    have hl := find_length hfind
    change e + 4 ≤ s.length at hl
    cases hfill : fill holdsHeader kMaxHeaderBytes [] events with
    | closed =>
      rw [hfill] at hen
      have := hen.1
      omega
    | tooLarge =>
      rw [hfill] at hen
      by_cases hla : kMaxHeaderBytes < e + 4
      · exact .inl (by simp only [if_pos hla])
      · exact .inr ⟨rfl, e, rfl, by omega, .inl hen.2⟩
    | filled b re =>
      rw [hfill] at hen
      obtain ⟨hb, hre, hlo, hsm⟩ := hen
      have hfits : e + 4 ≤ kMaxHeaderBytes := by
        rcases hsm with rfl | hsm
        · simp at hlo
        · omega
      obtain ⟨hf, ht⟩ := find_of_append hfind hb hlo
      simp only [hf, readBuffered, ht, if_neg (not_lt.2 hfits)]
      cases hpa : parseHead (s.take e) with
      | none => exact .inl rfl
      | some he =>
        simp only
        split
        · exact .inl rfl
        next hbd =>
          rcases readBody_cases he (e + 4) hb hre hlo with h | ⟨h, hp, hk⟩
          · exact .inl h
          · exact .inr ⟨h, e, rfl, hfits, .inr ⟨he, hpa, by omega, hp, hk⟩⟩

lemma readRequest_bytewise (s : Bytes) : readRequest (bytewise s) = ideal s := by
  rcases readRequest_cases (chunked_bytewise s) (stream_bytewise s) with h | ⟨_, e, _, hfits, h⟩
  · exact h
  · rcases h with ⟨k, h1, _, h3⟩ | ⟨he, _, h1, _, k, h2, _, h3⟩ <;> omega

lemma delivers_bytewise (s : Bytes) : Delivers (bytewise s) s :=
  ⟨(chunked_bytewise s).mono (by decide), stream_bytewise s⟩

/-- Bytes one by one, a whole chunk from `n` on, and the rest one by one. -/
def chunkAt (n : Nat) (s : Bytes) : List (Event UInt8) :=
  bytewise (s.take n) ++ .data ((s.drop n).take kChunkBytes) :: bytewise (s.drop (n + kChunkBytes))

lemma stream_chunkAt (n : Nat) (s : Bytes) : stream (chunkAt n s) = s := by
  simp only [chunkAt, stream_append, stream_bytewise, stream_cons, Event.bytes]
  rw [← drop_drop, take_append_drop, take_append_drop]

lemma delivers_chunkAt {n : Nat} (h : n < s.length) : Delivers (chunkAt n s) s := by
  refine ⟨?_, stream_chunkAt n s⟩
  refine Chunked.append ((chunked_bytewise _).mono (by decide)) ?_
  intro ch hc
  rcases mem_cons.1 hc with hc | hc
  · obtain rfl := Event.data.inj hc
    refine ⟨?_, by simp⟩
    rw [ne_eq, ← length_eq_zero_iff, length_take, length_drop]
    have : 0 < kChunkBytes := by decide
    omega
  · exact ((chunked_bytewise _).mono (by decide)) ch hc

section
variable (hfind : find terminator s = some e) (hfits : e + 4 ≤ kMaxHeaderBytes)
include hfind hfits

lemma readRequest_chunkAt_header (hlo : kMaxHeaderBytes < s.length)
    (hn : kMaxHeaderBytes < e + 3 + kChunkBytes) :
    readRequest (chunkAt (e + 3) s) = .rejected 413 := by
  have hl := find_length hfind
  change e + 4 ≤ s.length at hl
  have hp : (s.take (e + 3)).length = e + 3 := by rw [length_take]; omega
  have hc : ((s.drop (e + 3)).take kChunkBytes).length =
      min kChunkBytes (s.length - (e + 3)) := by rw [length_take, length_drop]
  have hf : fill holdsHeader kMaxHeaderBytes [] (chunkAt (e + 3) s) = .tooLarge := by
    refine fill_overshoot (enough_header hfind) _ _ _ [] (stream_chunkAt (e + 3) s) ?_ ?_ ?_
    · simp only [nil_append, stream_bytewise, hp]
      omega
    · simp only [nil_append, stream_bytewise, hp]
      omega
    · simp only [nil_append, stream_bytewise, hp, hc]
      omega
  rw [readRequest, hf]

lemma readRequest_chunkAt_body {he : Head} (hpa : parseHead (s.take e) = some he)
    (hb : he.contentLength ≤ kMaxBodyBytes) (hpo : 0 < he.contentLength)
    (hlo : e + 4 + kMaxBodyBytes < s.length)
    (hn : kMaxBodyBytes < he.contentLength - 1 + kChunkBytes) :
    readRequest (chunkAt (e + 4 + (he.contentLength - 1)) s) = .rejected 413 := by
  have hl := find_length hfind
  change e + 4 ≤ s.length at hl
  -- the chunked stream from the end of the header on
  have hs : chunkAt (e + 4 + (he.contentLength - 1)) s = bytewise (s.take (e + 4)) ++
      chunkAt (he.contentLength - 1) (s.drop (e + 4)) := by
    simp only [chunkAt, bytewise, take_add, map_append, append_assoc, drop_drop, add_assoc]
  have ht : (s.take (e + 4)).length = e + 4 := by rw [length_take]; omega
  have hf : fill holdsHeader kMaxHeaderBytes [] (bytewise (s.take (e + 4)) ++
      chunkAt (he.contentLength - 1) (s.drop (e + 4))) = .filled (s.take (e + 4))
        (chunkAt (he.contentLength - 1) (s.drop (e + 4))) := by
    refine fill_bytewise (enough_header hfind) _ _ [] ?_ (by simp) ?_ hfits
    · rw [stream_chunkAt, nil_append, take_append_drop]
    · rw [nil_append, ht]
  have hfo := (find_of_append hfind (take_append_drop (e + 4) s) (by rw [ht])).1
  have hh : (s.take (e + 4)).take e = s.take e := by
    rw [take_take]
    congr 1
    omega
  have hp : ((s.drop (e + 4)).take (he.contentLength - 1)).length = he.contentLength - 1 := by
    rw [length_take, length_drop]
    omega
  have hc : (((s.drop (e + 4)).drop (he.contentLength - 1)).take kChunkBytes).length =
      min kChunkBytes (s.length - (e + 4) - (he.contentLength - 1)) := by
    rw [length_take, length_drop, length_drop]
  have hlp : fill (fun bs : Bytes => decide (e + 4 + he.contentLength ≤ bs.length))
      (e + 4 + kMaxBodyBytes) (s.take (e + 4))
      (chunkAt (he.contentLength - 1) (s.drop (e + 4))) = .tooLarge := by
    refine fill_overshoot (enough_body (e + 4 + he.contentLength) s) _ _ _ _ ?_ ?_ ?_ ?_
    · change s.take (e + 4) ++ stream (chunkAt (he.contentLength - 1) (s.drop (e + 4))) = s
      rw [stream_chunkAt, take_append_drop]
    · rw [length_append, stream_bytewise, ht, hp]
      omega
    · rw [length_append, stream_bytewise, ht, hp]
      omega
    · rw [length_append, stream_bytewise, ht, hp, hc]
      omega
  rw [readRequest, hs, hf]
  simp only [hfo, readBuffered, hh, hpa, if_neg (not_lt.2 hb), readBody, hlp]

end

/-- What is wanted of a stream: the same outcome for every segmentation, the announced bytes as
the body, and no complaint about the size of a request within both limits. -/
structure SegmentationFree (s : Bytes) : Prop where
  same : ∀ events events', Delivers events s → Delivers events' s →
    readRequest events = readRequest events'
  body : ∀ events request, Delivers events s → readRequest events = .accepted request →
    ∃ e head, find terminator s = some e ∧ parseHead (s.take e) = some head ∧
      request = { method := head.method, path := head.path, sessionId := head.sessionId,
                  body := (s.drop (e + 4)).take head.contentLength } ∧
      request.body.length = head.contentLength
  fits : ∀ e head, find terminator s = some e → e + 4 ≤ kMaxHeaderBytes →
    parseHead (s.take e) = some head → head.contentLength ≤ kMaxBodyBytes →
    ∀ events, Delivers events s → readRequest events ≠ .rejected 413

/-- The header ends a chunk below its limit, or the stream as a whole stays within it. -/
def HeaderClear (s : Bytes) (e : Nat) : Prop :=
  s.length ≤ kMaxHeaderBytes ∨ e + 3 + kChunkBytes ≤ kMaxHeaderBytes

/-- The body ends a chunk below its limit, or all that follows the header stays within it. -/
def BodyClear (s : Bytes) (e : Nat) (head : Head) : Prop :=
  head.contentLength = 0 ∨ s.length ≤ e + 4 + kMaxBodyBytes ∨
    head.contentLength - 1 + kChunkBytes ≤ kMaxBodyBytes

/-- Neither limit lies within reach of a chunk that brings the end of its part. -/
def Clear (s : Bytes) : Prop := ∀ e, find terminator s = some e → e + 4 ≤ kMaxHeaderBytes →
    match parseHead (s.take e) with
    | none => HeaderClear s e
    | some head => kMaxBodyBytes < head.contentLength ∨ HeaderClear s e ∧ BodyClear s e head

lemma readRequest_of_clear (h : Clear s) (hd : Delivers events s) :
    readRequest events = ideal s := by
  rcases readRequest_cases hd.chunked hd.stream with heq | ⟨heq, e, hfind, hfits, hk⟩
  · exact heq
  · have hcl := h e hfind hfits
    rcases hk with ⟨k, h1, h2, h3⟩ | ⟨he, hpa, hb, hp, k, h1, h2, h3⟩
    · -- a chunk passed the header's limit, which is out of reach or does not matter
      have hn : ¬ HeaderClear s e := by
        rintro (hs | hf) <;> omega
      cases hpa : parseHead (s.take e) with
      | none =>
        rw [hpa] at hcl
        exact absurd hcl hn
      | some he =>
        rw [hpa] at hcl
        rcases hcl with hl | ⟨hh, _⟩
        · rw [heq, ideal, hfind]
          simp only [if_neg (not_lt.2 hfits), hpa, if_pos hl]
        · exact absurd hh hn
    · rw [hpa] at hcl
      rcases hcl with hl | ⟨_, hcl⟩
      · omega
      · rcases hcl with hz | hs | hf <;> omega

lemma framed_ne_413 (s : Bytes) (bs : Nat) (he : Head) : framed s bs he ≠ .rejected 413 := by
  unfold framed
  split <;> simp

lemma body_of_accepted {re : HttpRequest} (hd : Delivers events s)
    (h : readRequest events = .accepted re) :
    ∃ e he, find terminator s = some e ∧ parseHead (s.take e) = some he ∧
    re = { method := he.method, path := he.path, sessionId := he.sessionId,
                  body := (s.drop (e + 4)).take he.contentLength } ∧
      re.body.length = he.contentLength := by
  rcases readRequest_cases hd.chunked hd.stream with heq | ⟨heq, _⟩
  · rw [h, ideal] at heq
    cases hfind : find terminator s with
    | none =>
      simp only [hfind] at heq
      split at heq <;> simp at heq
    | some e =>
      simp only [hfind] at heq
      split at heq
      · simp at heq
      · cases hpa : parseHead (s.take e) with
        | none => simp [hpa] at heq
        | some he =>
          simp only [hpa, framed] at heq
          split at heq
          · simp at heq
          · split at heq
            · simp at heq
            next hl =>
              obtain rfl := Outcome.accepted.inj heq
              refine ⟨e, he, rfl, hpa, rfl, ?_⟩
              simp only [length_take, length_drop]
              omega
  · rw [h] at heq
    simp at heq

/-- A stream is read alike however it is cut exactly when neither size limit lies within reach of
a chunk that brings the end of the header or of the body. -/
theorem segmentation_free_iff (s : Bytes) : SegmentationFree s ↔ Clear s := by
  constructor
  · intro h e hfind hfits
    have hl := find_length hfind
    change e + 4 ≤ s.length at hl
    have hh : ideal s ≠ .rejected 413 → HeaderClear s e := by
      intro hi
      by_contra hclear
      simp only [HeaderClear, not_or, not_le] at hclear
      refine hi ?_
      rw [← readRequest_bytewise s, ← readRequest_chunkAt_header hfind hfits hclear.1 hclear.2]
      exact h.same _ _ (delivers_bytewise s) (delivers_chunkAt (by omega))
    cases hp : parseHead (s.take e) with
    | none =>
      refine hh ?_
      simp [ideal, hfind, if_neg (not_lt.2 hfits), hp]
    | some head =>
      by_cases hb : kMaxBodyBytes < head.contentLength
      · exact .inl hb
      · have hi : ideal s = framed s (e + 4) head := by
          simp only [ideal, hfind, if_neg (not_lt.2 hfits), hp, if_neg hb]
        refine .inr ⟨hh (hi ▸ framed_ne_413 s (e + 4) head), ?_⟩
        by_contra hclear
        simp only [BodyClear, not_or, not_le] at hclear
        refine framed_ne_413 s (e + 4) head ?_
        rw [← hi, ← readRequest_bytewise s,
          ← readRequest_chunkAt_body hfind hfits hp (Nat.le_of_not_lt hb) (by omega)
            hclear.2.1 hclear.2.2]
        exact h.same _ _ (delivers_bytewise s) (delivers_chunkAt (by omega))
  · intro h
    refine ⟨?_, ?_, ?_⟩
    · intro events es' he he'
      rw [readRequest_of_clear h he, readRequest_of_clear h he']
    · intro events re he ha
      exact body_of_accepted he ha
    · intro e head hfind hfits hp hb events he
      rw [readRequest_of_clear h he, ideal, hfind]
      simp only [if_neg (not_lt.2 hfits), hp, if_neg (not_lt.2 hb)]
      exact framed_ne_413 s (e + 4) head

lemma clear_of_short (h : s.length ≤ kMaxHeaderBytes) : Clear s := by
  intro e _ _
  cases parseHead (s.take e) with
  | none => exact .inl h
  | some he =>
    have hl : kMaxHeaderBytes ≤ kMaxBodyBytes := by decide
    exact .inr ⟨.inl h, .inr (.inl (by omega))⟩

theorem segmentation_free_short :
    SegmentationFree (ascii "GET /health HTTP/1.1\r\nx-axiom-session-id: a\r\n\r\n") :=
  (segmentation_free_iff _).2 (clear_of_short (by decide))

lemma find_terminator_line (line text : Bytes) (hl : 13 ∉ line)
    (ht : text.head? ≠ some 13) : find terminator (line ++ (crlf ++ text)) =
    (find terminator text).map (· + 2 + line.length) := by
  have hc : find [13, 10, 13, 10] (crlf ++ text) = (find [13, 10, 13, 10] text).map (· + 2) := by
    have hp : ¬ [13, 10, 13, 10] <+: 13 :: 10 :: text := by
      rintro ⟨re, hr⟩
      obtain rfl : 13 :: 10 :: re = text := by simpa using hr
      exact ht rfl
    simp only [crlf, cons_append, nil_append]
    rw [find, if_neg (by rwa [ isPrefixOf_iff_prefix]), find, if_neg (by simp), Option.map_map]
    rfl
  rw [terminator, find_append_of_notMem hl, hc, Option.map_map]
  rfl

variable {line : Bytes}

variable (hl : 13 ∉ line)
include hl

lemma find_terminator_last (text : Bytes) :
    find terminator (line ++ (terminator ++ text)) = some line.length := by
  have hf : find [13, 10, 13, 10] ([13, 10, 13, 10] ++ text) = some 0 := by
    simp [find]
  rw [terminator, find_append_of_notMem hl, hf]
  simp

lemma cutLine_line (text : Bytes) : cutLine (line ++ (crlf ++ text)) = (line, text) := by
  have hfind : find crlf (line ++ (crlf ++ text)) = some line.length := by
    have hf : find [13, 10] ([13, 10] ++ text) = some 0 := by simp [find]
    rw [crlf, find_append_of_notMem hl, hf]
    simp
  have hd : (line ++ (crlf ++ text)).drop (line.length + 2) = text := by
    rw [← drop_drop, drop_left]
    rfl
  simp [cutLine, hfind, hd]

lemma cutLine_last : cutLine line = (line, []) := by
  have hfind : find crlf line = none := by
    have h : find [13, 10] (line ++ []) = _ := find_append_of_notMem hl []
    rw [append_nil] at h
    rw [crlf, h]
    rfl
  simp only [cutLine, hfind]

omit hl

def requestLine : Bytes := ascii "POST / HTTP/1.1"
def lengthField : Bytes := ascii "content-length: 1"

def longField : Bytes := ascii "x:" ++ List.replicate 65494 97

def limitHeader : Bytes := requestLine ++ (crlf ++ (lengthField ++ (crlf ++ longField)))

def limitRequest : Bytes := limitHeader ++ (terminator ++ [98])

def limitHead : Head :=
  { method := ascii "POST", path := ascii "/", contentLength := 1, haveContentLength := true }

lemma notMem_longField : 13 ∉ longField := by
  simp only [longField, mem_append, mem_replicate]
  decide

lemma length_longField : longField.length = 65496 := by
  rw [longField, length_append, length_replicate]
  rfl

lemma length_limitHeader : limitHeader.length = 65532 := by
  simp only [limitHeader, length_append, length_longField]
  rfl

lemma length_limitRequest : limitRequest.length = 65537 := by
  rw [limitRequest, length_append, length_limitHeader]
  rfl

lemma find_limitRequest : find terminator limitRequest = some 65532 := by
  have hla := find_terminator_last notMem_longField [98]
  have hfi := find_terminator_line lengthField (longField ++ (terminator ++ [98]))
    (by decide) (by decide)
  have hli := find_terminator_line requestLine
    (lengthField ++ (crlf ++ (longField ++ (terminator ++ [98])))) (by decide) (by decide)
  rw [hla, length_longField] at hfi
  rw [hfi] at hli
  have hs : limitRequest = requestLine ++ (crlf ++ (lengthField ++
      (crlf ++ (longField ++ (terminator ++ [98]))))) := by
    simp [limitRequest, limitHeader]
  rw [hs, hli]
  rfl

lemma parseField_other (head : Head) (va : Bytes) :
    parseField head (ascii "x:" ++ va) = some head := by
  rfl

lemma parseHead_padded {value : Bytes} (hv : 13 ∉ value) :
    parseHead (requestLine ++ (crlf ++ (lengthField ++ (crlf ++ (ascii "x:" ++ value))))) =
    some limitHead := by
  have hr : parseRequestLine requestLine =
      some { method := ascii "POST", path := ascii "/" } := by decide
  have hl : parseField { method := ascii "POST", path := ascii "/" } lengthField =
      some limitHead := by decide
  have hla : 13 ∉ ascii "x:" ++ value := by
    rw [mem_append, not_or]
    exact ⟨by decide, hv⟩
  rw [parseHead, cutLine_line (by decide)]
  simp only [hr, bind_some]
  rw [parseFields, dif_neg (append_ne_nil_of_left_ne_nil (by decide) _), cutLine_line (by decide)]
  simp only [hl]
  rw [parseFields, dif_neg (append_ne_nil_of_left_ne_nil (by decide) _), cutLine_last hla]
  simp only [parseField_other]
  rw [parseFields, dif_pos rfl]

lemma parseHead_limitHeader : parseHead limitHeader = some limitHead := by
  refine parseHead_padded ?_
  rw [mem_replicate]
  decide

/-- The request is accepted when it arrives byte by byte, and refused for its size when the last
byte of the header comes together with the body. -/
theorem request_at_limit_refused : readRequest (bytewise limitRequest) =
      .accepted { method := ascii "POST", path := ascii "/", body := [98], sessionId := [] } ∧
    Delivers (chunkAt 65535 limitRequest) limitRequest ∧
    readRequest (chunkAt 65535 limitRequest) = .rejected 413 ∧
    ¬ SegmentationFree limitRequest := by
  have ht : limitRequest.take 65532 = limitHeader := by
    rw [limitRequest, take_left' length_limitHeader]
  have hdr : limitRequest.drop 65536 = [98] := by
    rw [limitRequest, ← append_assoc, drop_left']
    rw [length_append, length_limitHeader]
    rfl
  have hd : Delivers (chunkAt 65535 limitRequest) limitRequest :=
    delivers_chunkAt (by rw [length_limitRequest]; omega)
  have ha : readRequest (bytewise limitRequest) =
      .accepted { method := ascii "POST", path := ascii "/", body := [98], sessionId := [] } := by
    rw [readRequest_bytewise, ideal, find_limitRequest]
    simp only [ht, parseHead_limitHeader, framed, length_limitRequest, hdr]
    rfl
  have hr : readRequest (chunkAt 65535 limitRequest) = .rejected 413 :=
    readRequest_chunkAt_header find_limitRequest (by decide)
      (by rw [length_limitRequest]; decide) (by decide)
  refine ⟨ha, hd, hr, fun h => ?_⟩
  have hs := h.same _ _ (delivers_bytewise limitRequest) hd
  rw [ha, hr] at hs
  simp at hs

end AxiomKernel.Qwen38.Api
