import Mathlib
import VirtualContributor.Lib.Machine
import VirtualContributor.Web.FetchSafety

/-!
# Bounded bodies

`_read_bounded_body`: the body of a response is read in pieces, under a bound on
the raw and on the decoded bytes.  A content type that says too little is judged
again on the first bytes of the body.

The reader is a machine.  One step takes a raw chunk or decodes a piece of the
last one.

* `body_le_maxBytes`: no reading holds more than the bound, in any encoding.
* `read_identity`: without an encoding, the outcome depends on the bytes and not
  on the chunks they come in.
* `GraphQLClient.accepts_iff`: for the client's own policy the first bytes decide
  as the whole body would.
-/

namespace VirtualContributor.Web

open Lib

def STREAM_CHUNK_BYTES : Nat := 64 * 1024
def SNIFF_WINDOW_BYTES : Nat := 4 * 1024

/-- The decision on a content type and, if it is asked again, the first bytes.
Nothing at first asks for the bytes. -/
abbrev ContentTypePolicy := String → Option Body → Option Bool

/-! ## Decoding -/

/-- `zlib`: decompression with a bound on the output.  It gives the output, the
input that is left over and the next state. -/
structure Zlib where
  Decompressor : Type
  gzip : Decompressor
  deflate : Decompressor
  decompress : Decompressor → Body → Nat → Except Exc (Body × Body × Decompressor)
  flush : Decompressor → Nat → Except Exc Body

/-- `_BoundedContentDecoder`: no decompressor for the identity. -/
abbrev BoundedContentDecoder (Z : Zlib) := Option Z.Decompressor

namespace BoundedContentDecoder

variable {Z : Zlib}

def new (L : UrlLib) (contentEncoding : String) : Except Exc (BoundedContentDecoder Z) :=
  let encoding := L.lower (strip contentEncoding)
  if encoding = "" || encoding = "identity" then .ok none
  else if encoding = "gzip" then .ok (some Z.gzip)
  else if encoding = "deflate" then .ok (some Z.deflate)
  else .error (valueError s!"unsupported content encoding: {encoding}")

/-- At most `maxOutput + 1` bytes, the unconsumed input and the next state. -/
def decode (decoder : BoundedContentDecoder Z) (data : Body) (maxOutput : Nat) :
    Except Exc (Body × Body × BoundedContentDecoder Z) :=
  match decoder with
  | none => .ok (data.take (maxOutput + 1), data.drop (maxOutput + 1), none)
  | some decompressor =>
    (Z.decompress decompressor data (maxOutput + 1)).map fun (decoded, rest, next) =>
      (decoded, rest, some next)

def flush (decoder : BoundedContentDecoder Z) (maxOutput : Nat) : Except Exc Body :=
  match decoder with
  | none => .ok []
  | some decompressor => Z.flush decompressor (maxOutput + 1)

end BoundedContentDecoder

/-! ## The reader -/

/-- The raw bytes of a response: content that is already loaded, and whether its
stream is consumed, or the chunks of a stream, which may raise. -/
inductive RawBody where
  | preloaded (content : Body) (consumed : Bool)
  | streamed (chunks : List (Except Exc Body))

/-- `_iter_raw_chunks`. -/
def iterRawChunks (raw : RawBody) (chunkSize : Nat) : List (Except Exc Body) :=
  match raw with
  | .preloaded content _ => (slices chunkSize content).map .ok
  | .streamed chunks => chunks

/-- The arguments of `_read_bounded_body` besides the response. -/
structure BodyOptions where
  maxBytes : Nat
  contentType : String
  contentTypePolicy : Option ContentTypePolicy

/-- `(body, reason)`, or what is raised. -/
abbrev BodyOutcome := Except Exc (Option Body × Option RefusalCategory)

def refuseBody (reason : RefusalCategory) : BodyOutcome := .ok (none, some reason)

/-- The variables of a reading. -/
structure BodyReading (Z : Zlib) where
  chunks : List (Except Exc Body)
  pending : Body := []
  rawBytes : Nat := 0
  body : Body := []
  sniff : Body := []
  needsSniff : Bool
  decoder : BoundedContentDecoder Z

inductive BodyState (Z : Zlib) where
  | reading (r : BodyReading Z)
  | finished (outcome : BodyOutcome)

section Reader

variable {Z : Zlib} (L : UrlLib) (opts : BodyOptions)

namespace BodyOptions

/-- The policy; without one, every type is allowed. -/
def policy : Option Body → Option Bool :=
  (opts.contentTypePolicy.getD fun _ _ => some true) opts.contentType

end BodyOptions

/-- The encoding that is still to be decoded. -/
def contentEncoding (response : Response) (raw : RawBody) : String :=
  match raw with
  | .preloaded _ true => ""
  | _ => (response.header "content-encoding").getD ""

/-- `_read_bounded_body` up to its loop. -/
def beginBody (response : Response) (raw : RawBody) : BodyState Z :=
  match opts.policy none with
  | some false => .finished (refuseBody .contentType)
  | decision =>
    match BoundedContentDecoder.new L (contentEncoding response raw) with
    | .error exc => .finished (.error exc)
    | .ok decoder =>
      .reading {
        chunks := iterRawChunks raw (min STREAM_CHUNK_BYTES (opts.maxBytes + 1))
        needsSniff := decision.isNone
        decoder := decoder }

namespace BodyReading

variable (r : BodyReading Z)

/-- The end of the loop: flush the decoder, and judge a short body. -/
def finish : BodyOutcome :=
  let remaining := opts.maxBytes - r.body.length
  match r.decoder.flush remaining with
  | .error exc => .error exc
  | .ok flushed =>
    if remaining < flushed.length then refuseBody .size
    else
      let sniff := r.sniff ++ flushed.take (SNIFF_WINDOW_BYTES - r.sniff.length)
      if r.needsSniff && opts.policy (some sniff) ≠ some true then refuseBody .contentType
      else .ok (some (r.body ++ flushed), none)

/-- The head of the outer loop: take the next chunk. -/
def receiveChunk : BodyState Z :=
  match r.chunks with
  | [] => .finished (r.finish opts)
  | .error exc :: _ => .finished (.error exc)
  | .ok rawChunk :: chunks =>
    let rawBytes := r.rawBytes + rawChunk.length
    if opts.maxBytes < rawBytes then .finished (refuseBody .size)
    else .reading { r with chunks := chunks, rawBytes := rawBytes, pending := rawChunk }

/-- The body of the inner loop: decode a piece of the chunk. -/
def decodePiece : BodyState Z :=
  let remaining := opts.maxBytes - r.body.length
  let window := SNIFF_WINDOW_BYTES - r.sniff.length
  match r.decoder.decode r.pending (if r.needsSniff then min remaining window else remaining) with
  | .error exc => .finished (.error exc)
  | .ok (decoded, pending, decoder) =>
    if remaining < decoded.length then .finished (refuseBody .size)
    else
      let next := { r with pending := pending, decoder := decoder, body := r.body ++ decoded }
      if r.needsSniff then
        let sniff := r.sniff ++ decoded.take window
        if SNIFF_WINDOW_BYTES ≤ sniff.length then
          if opts.policy (some sniff) = some true then
            .reading { next with sniff := sniff, needsSniff := false }
          else .finished (refuseBody .contentType)
        else .reading { next with sniff := sniff }
      else .reading next

end BodyReading

/-- One turn of the outer or of the inner loop. -/
def BodyState.step : BodyState Z → Unit → Option (BodyState Z)
  | .reading r, () => some (if r.pending = [] then r.receiveChunk opts else r.decodePiece opts)
  | .finished _, () => none

/-- The reading of the body of a response. -/
def readBody (Z : Zlib) (response : Response) (raw : RawBody) : Machine (BodyState Z) Unit where
  init := beginBody L opts response raw
  step := BodyState.step opts

end Reader

/-! ## The bound -/

section Bound

variable {Z : Zlib} {L : UrlLib} {opts : BodyOptions}

/-- The states after a step, whatever the encoding. -/
theorem BodyState.step_cases {s s' : BodyState Z} (h : BodyState.step opts s () = some s') :
    ∃ r, s = .reading r ∧
      (r.pending = [] ∧ s' = r.receiveChunk opts ∨ r.pending ≠ [] ∧ s' = r.decodePiece opts) := by
  cases s with
  | finished outcome => exact absurd h nofun
  | reading r =>
    refine ⟨r, rfl, ?_⟩
    rw [BodyState.step, Option.some.injEq] at h
    split at h
    case isTrue hpending => exact .inl ⟨hpending, h.symm⟩
    case isFalse hpending => exact .inr ⟨hpending, h.symm⟩

/-- No reading holds more than the bound. -/
def BodyState.Bounded (maxBytes : Nat) : BodyState Z → Prop
  | .reading r => r.body.length ≤ maxBytes
  | .finished (.ok (some body, _)) => body.length ≤ maxBytes
  | .finished _ => True

theorem bounded_beginBody (response : Response) (raw : RawBody) :
    (beginBody (Z := Z) L opts response raw).Bounded opts.maxBytes := by
  unfold beginBody
  split
  · trivial
  · split
    · trivial
    · exact Nat.zero_le _

theorem BodyReading.bounded_finish {r : BodyReading Z} (h : r.body.length ≤ opts.maxBytes) :
    BodyState.Bounded (Z := Z) opts.maxBytes (.finished (r.finish opts)) := by
  unfold finish
  dsimp only
  split
  · trivial
  · split
    · trivial
    · rename_i flushed _ _
      split
      · trivial
      · show (r.body ++ flushed).length ≤ _
        rw [List.length_append]
        omega

theorem BodyReading.bounded_receiveChunk {r : BodyReading Z}
    (h : r.body.length ≤ opts.maxBytes) : (r.receiveChunk opts).Bounded opts.maxBytes := by
  unfold receiveChunk
  split
  · exact bounded_finish h
  · trivial
  · dsimp only
    split
    · trivial
    · exact h

theorem BodyReading.bounded_decodePiece {r : BodyReading Z}
    (h : r.body.length ≤ opts.maxBytes) : (r.decodePiece opts).Bounded opts.maxBytes := by
  unfold decodePiece
  dsimp only
  split
  · trivial
  · rename_i decoded pending decoder hdecode
    split
    · trivial
    · have hbody : (r.body ++ decoded).length ≤ opts.maxBytes := by
        rw [List.length_append]
        omega
      split
      · split
        · split
          · exact hbody
          · trivial
        · exact hbody
      · exact hbody

/-- In any encoding, the body never exceeds the bound. -/
theorem body_le_maxBytes {response : Response} {raw : RawBody} {s : BodyState Z}
    (h : (readBody L opts Z response raw).Reachable s) : s.Bounded opts.maxBytes := by
  induction h with
  | init => exact bounded_beginBody response raw
  | step _ he ih =>
    obtain ⟨r, rfl, ⟨_, rfl⟩ | ⟨_, rfl⟩⟩ := BodyState.step_cases he
    · exact BodyReading.bounded_receiveChunk ih
    · exact BodyReading.bounded_decodePiece ih

end Bound

/-! ## The identity encoding -/

/-- The bytes that a response carries, in whatever chunks. -/
inductive RawBody.Carries (bytes : Body) : RawBody → Prop
  | preloaded (consumed : Bool) : RawBody.Carries bytes (.preloaded bytes consumed)
  | streamed {received : List Body} (h : received.flatten = bytes) :
    RawBody.Carries bytes (.streamed (received.map .ok))

/-- A type is accepted by itself, or on the first bytes of the body. -/
def BodyOptions.Accepts (opts : BodyOptions) (bytes : Body) : Prop :=
  opts.policy none = some true ∨
    opts.policy none = none ∧ opts.policy (some (bytes.take SNIFF_WINDOW_BYTES)) = some true

/-- The outcome that some bytes have: all of them, or a refusal. -/
structure BodyOptions.Judges (opts : BodyOptions) (bytes : Body) (outcome : BodyOutcome) :
    Prop where
  accepted : bytes.length ≤ opts.maxBytes ∧ opts.Accepts bytes → outcome = .ok (some bytes, none)
  refused : ¬(bytes.length ≤ opts.maxBytes ∧ opts.Accepts bytes) →
    ∃ reason, outcome = refuseBody reason

section Identity

variable {Z : Zlib} {L : UrlLib} {opts : BodyOptions} {bytes : Body}

theorem judges_refuseBody (h : ¬(bytes.length ≤ opts.maxBytes ∧ opts.Accepts bytes))
    (reason : RefusalCategory) : opts.Judges bytes (refuseBody reason) :=
  ⟨fun haccepted => absurd haccepted h, fun _ => ⟨reason, rfl⟩⟩

/-- A reading in the middle of some bytes: they are the body so far, the rest
of the chunk and the chunks to come. -/
structure BodyReading.Amid (opts : BodyOptions) (bytes : Body) (r : BodyReading Z) : Prop where
  split : ∃ received : List Body, r.chunks = received.map .ok ∧
    r.body ++ r.pending ++ received.flatten = bytes
  identity : r.decoder = none
  raw : r.rawBytes = r.body.length + r.pending.length
  bounded : r.rawBytes ≤ opts.maxBytes
  sniffing : r.needsSniff = true →
    opts.policy none = none ∧ r.sniff = r.body ∧ r.sniff.length < SNIFF_WINDOW_BYTES
  decided : r.needsSniff = false → opts.Accepts bytes

def BodyState.Sound (opts : BodyOptions) (bytes : Body) : BodyState Z → Prop
  | .reading r => r.Amid opts bytes
  | .finished outcome => opts.Judges bytes outcome

theorem exists_chunks {raw : RawBody} (h : raw.Carries bytes) {chunkSize : Nat}
    (hsize : 0 < chunkSize) :
    ∃ received : List Body, iterRawChunks raw chunkSize = received.map .ok ∧
      received.flatten = bytes := by
  cases h with
  | preloaded consumed => exact ⟨_, rfl, flatten_slices hsize bytes⟩
  | streamed hflatten => exact ⟨_, rfl, hflatten⟩

theorem sound_beginBody {response : Response} {raw : RawBody} (hraw : raw.Carries bytes)
    (hnew : BoundedContentDecoder.new (Z := Z) L (contentEncoding response raw) = .ok none) :
    (beginBody (Z := Z) L opts response raw).Sound opts bytes := by
  have hwindow : 0 < SNIFF_WINDOW_BYTES := by decide
  have hsize : 0 < min STREAM_CHUNK_BYTES (opts.maxBytes + 1) :=
    Nat.lt_min.mpr ⟨by decide, Nat.succ_pos _⟩
  obtain ⟨received, hchunks, hflatten⟩ := exists_chunks hraw hsize
  unfold beginBody
  cases hpolicy : opts.policy none with
  | none =>
    dsimp only
    rw [hnew]
    exact ⟨⟨received, hchunks, hflatten⟩, rfl, rfl, Nat.zero_le _,
      fun _ => ⟨hpolicy, rfl, hwindow⟩, nofun⟩
  | some decision =>
    cases decision with
    | false =>
      apply judges_refuseBody
      rintro ⟨_, htrue | ⟨hnone, _⟩⟩
      · rw [hpolicy] at htrue
        exact absurd htrue (by decide)
      · rw [hpolicy] at hnone
        exact absurd hnone (by decide)
    | true =>
      dsimp only
      rw [hnew]
      exact ⟨⟨received, hchunks, hflatten⟩, rfl, rfl, Nat.zero_le _, nofun,
        fun _ => .inl hpolicy⟩

namespace BodyReading

variable {r : BodyReading Z}

theorem Amid.judges_finish (h : r.Amid opts bytes) (hpending : r.pending = [])
    (hchunks : r.chunks = []) : opts.Judges bytes (r.finish opts) := by
  obtain ⟨received, hmap, hbytes⟩ := h.split
  have hreceived : received = [] := by
    rw [hchunks] at hmap
    exact List.map_eq_nil_iff.mp hmap.symm
  have hbody : r.body = bytes := by
    rw [← hbytes, hpending, hreceived, List.flatten_nil, List.append_nil, List.append_nil]
  have hlength : bytes.length ≤ opts.maxBytes := by
    have hraw := h.raw
    have hbounded := h.bounded
    rw [hpending, hbody, List.length_nil] at hraw
    omega
  unfold finish BoundedContentDecoder.flush
  rw [h.identity]
  dsimp only
  rw [List.length_nil, if_neg (Nat.not_lt_zero _), List.take_nil, List.append_nil,
    List.append_nil, hbody]
  cases hneeds : r.needsSniff with
  | false =>
    rw [Bool.false_and, if_neg Bool.false_ne_true]
    exact ⟨fun _ => rfl, fun hnot => absurd ⟨hlength, h.decided hneeds⟩ hnot⟩
  | true =>
    obtain ⟨hnone, hsniff, hshort⟩ := h.sniffing hneeds
    have htake : bytes.take SNIFF_WINDOW_BYTES = r.sniff := by
      rw [hsniff, hbody]
      rw [hsniff, hbody] at hshort
      exact List.take_of_length_le hshort.le
    simp only [Bool.true_and, decide_eq_true_eq]
    split
    case isTrue hrefused =>
      apply judges_refuseBody
      rintro ⟨_, htrue | ⟨_, htrue⟩⟩
      · exact absurd (hnone.symm.trans htrue) nofun
      · exact hrefused (htake ▸ htrue)
    case isFalse haccepted =>
      refine ⟨fun _ => rfl, fun hnot => absurd ⟨hlength, .inr ⟨hnone, ?_⟩⟩ hnot⟩
      rw [htake]
      exact Decidable.not_not.mp haccepted

theorem Amid.sound_receiveChunk (h : r.Amid opts bytes) (hpending : r.pending = []) :
    (r.receiveChunk opts).Sound opts bytes := by
  obtain ⟨received, hmap, hbytes⟩ := h.split
  unfold receiveChunk
  cases received with
  | nil =>
    rw [hmap]
    exact h.judges_finish hpending hmap
  | cons chunk received =>
    rw [hmap, List.map_cons]
    rw [hpending, List.append_nil, List.flatten_cons] at hbytes
    have hraw := h.raw
    rw [hpending, List.length_nil, Nat.add_zero] at hraw
    dsimp only
    split
    case isTrue hsize =>
      apply judges_refuseBody
      rintro ⟨hlength, _⟩
      rw [← hbytes, List.length_append, List.length_append] at hlength
      omega
    case isFalse hsize =>
      exact ⟨⟨received, rfl, by rw [List.append_assoc, hbytes]⟩, h.identity,
        congrArg (· + chunk.length) hraw, Nat.le_of_not_lt hsize, h.sniffing, h.decided⟩

theorem take_window {body : Body} {n : Nat} (h : body.length ≤ n) (decoded : Body) :
    body ++ decoded.take (n - body.length) = (body ++ decoded).take n := by
  rw [List.take_append, List.take_of_length_le h]

theorem Amid.sound_decodePiece (h : r.Amid opts bytes) : (r.decodePiece opts).Sound opts bytes := by
  obtain ⟨received, hmap, hbytes⟩ := h.split
  have hraw := h.raw
  have hbounded := h.bounded
  unfold decodePiece BoundedContentDecoder.decode
  rw [h.identity]
  dsimp only
  generalize (if r.needsSniff = true then
    min (opts.maxBytes - r.body.length) (SNIFF_WINDOW_BYTES - r.sniff.length)
    else opts.maxBytes - r.body.length) = limit
  have hfits : ¬opts.maxBytes - r.body.length < (r.pending.take (limit + 1)).length := by
    rw [List.length_take]
    omega
  have hsplit : r.body ++ r.pending.take (limit + 1) ++ r.pending.drop (limit + 1) ++
      received.flatten = bytes := by
    rw [List.append_assoc r.body, List.take_append_drop, hbytes]
  have hlengths : r.rawBytes = (r.body ++ r.pending.take (limit + 1)).length +
      (r.pending.drop (limit + 1)).length := by
    rw [← List.length_append, List.append_assoc, List.take_append_drop, List.length_append, hraw]
  rw [if_neg hfits]
  cases hneeds : r.needsSniff with
  | false =>
    rw [if_neg Bool.false_ne_true]
    exact ⟨⟨received, hmap, hsplit⟩, rfl, hlengths, hbounded, nofun,
      fun _ => h.decided hneeds⟩
  | true =>
    obtain ⟨hnone, hsniff, hshort⟩ := h.sniffing hneeds
    have hwindow := take_window (hsniff ▸ hshort.le) (r.pending.take (limit + 1))
    rw [if_pos rfl, hsniff, hwindow]
    split
    case isTrue hfull =>
      have htake : bytes.take SNIFF_WINDOW_BYTES =
          (r.body ++ r.pending.take (limit + 1)).take SNIFF_WINDOW_BYTES := by
        rw [List.length_take] at hfull
        rw [← hsplit, List.append_assoc, List.take_append_of_le_length (by omega)]
      split
      case isTrue htrue =>
        exact ⟨⟨received, hmap, hsplit⟩, rfl, hlengths, hbounded, nofun,
          fun _ => .inr ⟨hnone, htake ▸ htrue⟩⟩
      case isFalse hrefused =>
        apply judges_refuseBody
        rintro ⟨_, htrue | ⟨_, htrue⟩⟩
        · exact absurd (hnone.symm.trans htrue) nofun
        · exact hrefused (htake ▸ htrue)
    case isFalse hmore =>
      have hall : (r.body ++ r.pending.take (limit + 1)).take SNIFF_WINDOW_BYTES =
          r.body ++ r.pending.take (limit + 1) := by
        rw [List.length_take] at hmore
        exact List.take_of_length_le (by omega)
      rw [hall] at hmore ⊢
      exact ⟨⟨received, hmap, hsplit⟩, rfl, hlengths, hbounded,
        fun _ => ⟨hnone, rfl, Nat.lt_of_not_le hmore⟩, nofun⟩

end BodyReading

theorem BodyState.Sound.step {s s' : BodyState Z} (h : s.Sound opts bytes)
    (hstep : BodyState.step opts s () = some s') : s'.Sound opts bytes := by
  obtain ⟨r, rfl, ⟨hpending, rfl⟩ | ⟨_, rfl⟩⟩ := BodyState.step_cases hstep
  · exact BodyReading.Amid.sound_receiveChunk h hpending
  · exact BodyReading.Amid.sound_decodePiece h

/-! ### The end of a reading -/

def chunkWork : Except Exc Body → Nat
  | .ok chunk => chunk.length + 1
  | .error _ => 0

/-- The bytes that are left to decode, and one for each chunk. -/
def BodyReading.left (r : BodyReading Z) : Nat :=
  r.pending.length + (r.chunks.map chunkWork).sum + 1

def BodyState.left : BodyState Z → Nat
  | .reading r => r.left
  | .finished _ => 0

theorem BodyReading.left_receiveChunk (r : BodyReading Z) (hpending : r.pending = []) :
    (r.receiveChunk opts).left < (BodyState.reading r).left := by
  unfold receiveChunk
  split
  · exact Nat.succ_pos _
  · exact Nat.succ_pos _
  · rename_i rawChunk chunks hchunks
    dsimp only
    split
    · exact Nat.succ_pos _
    · show rawChunk.length + (chunks.map chunkWork).sum + 1 < r.left
      unfold left
      rw [hchunks, hpending, List.map_cons, List.sum_cons, List.length_nil]
      unfold chunkWork
      dsimp only
      omega

theorem BodyReading.left_decodePiece {r : BodyReading Z} (hidentity : r.decoder = none)
    (hpending : r.pending ≠ []) : (r.decodePiece opts).left < (BodyState.reading r).left := by
  have hdone : 0 < (BodyState.reading r).left := Nat.succ_pos _
  unfold decodePiece BoundedContentDecoder.decode
  rw [hidentity]
  dsimp only
  generalize (if r.needsSniff = true then
    min (opts.maxBytes - r.body.length) (SNIFF_WINDOW_BYTES - r.sniff.length)
    else opts.maxBytes - r.body.length) = limit
  have hless : (r.pending.drop (limit + 1)).length < r.pending.length := by
    have hpos := List.length_pos_iff.mpr hpending
    rw [List.length_drop]
    omega
  have hnext : ∀ next : BodyReading Z, next.chunks = r.chunks →
      next.pending = r.pending.drop (limit + 1) →
      (BodyState.reading next).left < (BodyState.reading r).left := by
    intro next hchunks hdrop
    show next.left < r.left
    unfold left
    rw [hchunks, hdrop]
    omega
  split
  · exact hdone
  · split
    · split
      · split
        · exact hnext _ rfl rfl
        · exact hdone
      · exact hnext _ rfl rfl
    · exact hnext _ rfl rfl

theorem BodyState.Sound.goes_on {s : BodyState Z} (h : s.Sound opts bytes) :
    (∃ outcome, s = .finished outcome) ∨
      ∃ s', BodyState.step opts s () = some s' ∧ s'.left < s.left := by
  cases s with
  | finished outcome => exact .inl ⟨outcome, rfl⟩
  | reading r =>
    right
    by_cases hpending : r.pending = []
    · exact ⟨_, congrArg some (if_pos hpending), r.left_receiveChunk hpending⟩
    · exact ⟨_, congrArg some (if_neg hpending),
        BodyReading.left_decodePiece (BodyReading.Amid.identity h) hpending⟩

/-- A response whose bytes are still encoded, if at all, by the identity. -/
def IdentityEncoded (L : UrlLib) (response : Response) (raw : RawBody) : Prop :=
  L.lower (strip (contentEncoding response raw)) ∈ ["", "identity"]

theorem new_identity {response : Response} {raw : RawBody}
    (h : IdentityEncoded L response raw) :
    BoundedContentDecoder.new (Z := Z) L (contentEncoding response raw) = .ok none := by
  unfold IdentityEncoded at h
  unfold BoundedContentDecoder.new
  rw [List.mem_cons, List.mem_singleton] at h
  exact if_pos (by simpa using h)

theorem sound_of_reachable {response : Response} {raw : RawBody} (hraw : raw.Carries bytes)
    (hencoding : IdentityEncoded L response raw) {s : BodyState Z}
    (h : (readBody L opts Z response raw).Reachable s) : s.Sound opts bytes :=
  h.invariant (sound_beginBody hraw (new_identity hencoding)) BodyState.Sound.step

end Identity

/-- Without an encoding, the reading of some bytes comes to an end, whatever
their chunks are.  It gives all of the bytes if they are no more than the bound
and their type is accepted, and refuses them otherwise. -/
theorem read_identity (L : UrlLib) (Z : Zlib) (opts : BodyOptions) (response : Response)
    (raw : RawBody) (bytes : Body) (hraw : raw.Carries bytes)
    (hencoding : IdentityEncoded L response raw) :
    let reader := readBody L opts Z response raw
    (∀ s, reader.Reachable s → s.Bounded opts.maxBytes) ∧
      (∃ outcome, reader.Reachable (.finished outcome)) ∧
      ∀ outcome, reader.Reachable (.finished outcome) → opts.Judges bytes outcome := by
  intro reader
  refine ⟨fun s => body_le_maxBytes, ?_, fun outcome => sound_of_reachable hraw hencoding⟩
  have hsteps : ∀ s, reader.Reachable s → (∃ outcome, s = .finished outcome) ∨
      ∃ e s', reader.step s e = some s' ∧ s'.left < s.left := by
    intro s hs
    obtain hdone | ⟨s', hstep, hless⟩ := (sound_of_reachable hraw hencoding hs).goes_on
    · exact .inl hdone
    · exact .inr ⟨(), s', hstep, hless⟩
  obtain ⟨s, hs, outcome, rfl⟩ := Machine.exists_done BodyState.left hsteps
  exact ⟨outcome, hs⟩

/-- Decompression of nothing. -/
def noZlib : Zlib where
  Decompressor := Unit
  gzip := ()
  deflate := ()
  decompress _ _ _ := .ok ([], [], ())
  flush _ _ := .ok []

/-- A plain text of three bytes in three chunks, one of them empty. -/
theorem read_identity_plain :
    let opts : BodyOptions := ⟨5, "text/plain", none⟩
    let reader := readBody hubLib opts noZlib ⟨200, fun _ => none⟩
      (.streamed ([[1, 2], [], [3]].map .ok))
    (∀ s, reader.Reachable s → s.Bounded 5) ∧
      (∃ outcome, reader.Reachable (.finished outcome)) ∧
      ∀ outcome, reader.Reachable (.finished outcome) → opts.Judges [1, 2, 3] outcome :=
  read_identity hubLib noZlib ⟨5, "text/plain", none⟩ ⟨200, fun _ => none⟩ _ [1, 2, 3]
    (.streamed rfl) (by unfold IdentityEncoded; decide)

/-! ## The policy of the space client -/

/-- `_MIME_KIND`. -/
def MIME_KIND : List (String × String) :=
  [("pdf", "pdf"),
    ("vnd.openxmlformats-officedocument.wordprocessingml.document", "docx"),
    ("vnd.openxmlformats-officedocument.spreadsheetml.sheet", "xlsx"),
    ("html", "html"), ("xml", "html"), ("text/plain", "text"), ("text/csv", "text"),
    ("text/markdown", "text"), ("json", "text")]

/-- The bytes of an ASCII text. -/
def asciiBytes (text : String) : Body := text.toList.map fun c => UInt8.ofNat c.toNat

/-- `_MAGIC`. -/
def MAGIC : List (Body × String) :=
  [(asciiBytes "%pdf", "pdf"), (asciiBytes "<!doc", "html"), (asciiBytes "<html", "html"),
    (asciiBytes "<?xml", "html")]

/-- `bytes.lower()`. -/
def lowerByte (b : UInt8) : UInt8 := if 65 ≤ b && b ≤ 90 then b + 32 else b

/-- `_detect_kind`. -/
def detectKind (L : UrlLib) (body : Body) (contentType : String) : Option String :=
  let ct := L.lower contentType
  let head := body.take 32
  match MIME_KIND.find? fun entry => contains ct entry.1 with
  | some entry => some entry.2
  | none =>
    match MAGIC.find? fun entry => entry.1.isPrefixOf (head.map lowerByte) with
    | some entry => some entry.2
    | none => if [80, 75, 3, 4].isPrefixOf head then some "docx_or_xlsx" else none

namespace GraphQLClient

def isSupportedContentType (contentType : String) : Bool :=
  MIME_KIND.any fun entry => contains contentType entry.1

/-- `GraphQLClient._content_type_policy`. -/
def contentTypePolicy (L : UrlLib) : ContentTypePolicy := fun contentType sniff =>
  if isSupportedContentType contentType then some true
  else if ["image/", "audio/", "video/", "font/"].any fun family =>
      family.toList.isPrefixOf contentType.toList then some false
  else sniff.map fun bytes => (detectKind L bytes contentType).isSome

/-- The first bytes that a reading shows are as good as all of them. -/
theorem detectKind_take (L : UrlLib) (bytes : Body) (contentType : String) :
    detectKind L (bytes.take SNIFF_WINDOW_BYTES) contentType = detectKind L bytes contentType := by
  unfold detectKind
  rw [List.take_take, Nat.min_eq_left (by decide)]

/-- The client's policy accepts what it would accept with the whole body in hand. -/
theorem accepts_iff (L : UrlLib) (maxBytes : Nat) (contentType : String) (bytes : Body) :
    BodyOptions.Accepts ⟨maxBytes, contentType, some (contentTypePolicy L)⟩ bytes ↔
      contentTypePolicy L contentType (some bytes) = some true := by
  unfold BodyOptions.Accepts BodyOptions.policy contentTypePolicy
  dsimp only [Option.getD_some]
  split
  · simp
  · split
    · simp
    · simp [detectKind_take]

end GraphQLClient

end VirtualContributor.Web
