import BybitApi.Exception
import BybitApi.Lib.Cycle

/-!
# Decompressing

`RESTClient::P::decompressGzip` calls `inflate` until it returns `Z_STREAM_END`. zlib is a parameter,
with what its documentation says of one call (`Zlib.Documented`). The codes that the loop neither
stops nor throws at are `Z_OK`, which is progress, and `Z_BUF_ERROR` and `Z_NEED_DICT`, which may come
back for ever.
-/

namespace BybitApi.Rest

open Lib

/-- What `inflate` returns. -/
inductive ReturnCode where
  | ok | streamEnd | needDict | streamError | dataError | memError | bufError
  deriving DecidableEq

def ReturnCode.value : ReturnCode → ℤ
  | ok => 0
  | streamEnd => 1
  | needDict => 2
  | streamError => -2
  | dataError => -3
  | memError => -4
  | bufError => -5

/-- After a call of `inflate`: the input that is left, the output it wrote, the state of the stream. -/
structure Inflated (Stream : Type) where
  ret : ReturnCode
  nextIn : List UInt8
  output : List UInt8
  stream : Stream

structure Zlib where
  Stream : Type
  /-- With `16 + MAX_WBITS`; none if it does not return `Z_OK`. -/
  inflateInit2 : Option Stream
  /-- With this input and room for so many bytes of output. -/
  inflate : Stream → List UInt8 → ℕ → Inflated Stream

section Decompress

variable (z : Zlib)

structure Inflating where
  stream : z.Stream
  nextIn : List UInt8
  result : List UInt8

def outbufSize : ℕ := 32768

def inflateRound (s : Inflating z) : Except Exception (Inflating z ⊕ List UInt8) :=
  let zs := z.inflate s.stream s.nextIn outbufSize
  if zs.ret = .streamError ∨ zs.ret = .dataError ∨ zs.ret = .memError then
    .error (.runtimeError ("inflate failed: " ++ toString zs.ret.value))
  else if zs.ret = .streamEnd then .ok (.inr (s.result ++ zs.output))
  else .ok (.inl ⟨zs.stream, zs.nextIn, s.result ++ zs.output⟩)

/-- `avail_in` has 32 bits. -/
def availIn (compressed : List UInt8) : List UInt8 := compressed.take (compressed.length % 2 ^ 32)

/-- With at most so many calls of `inflate`. -/
def decompressGzip (rounds : ℕ) (compressed : List UInt8) : Option (Except Exception (List UInt8)) :=
  match z.inflateInit2 with
  | none => some (.error (.runtimeError "inflateInit2 failed"))
  | some stream => loop (inflateRound z) rounds ⟨stream, availIn compressed, []⟩

end Decompress

namespace Zlib

/-- What the documentation says of a call of `inflate`. -/
structure Documented (z : Zlib) : Prop where
  consumes : ∀ stream input room, (z.inflate stream input room).nextIn <:+ input
  progress : ∀ stream input room, (z.inflate stream input room).ret = .ok →
    (z.inflate stream input room).nextIn ≠ input ∨ (z.inflate stream input room).output ≠ []
  /-- No progress was possible. -/
  unchanged : ∀ stream input room, (z.inflate stream input room).ret = .bufError →
    z.inflate stream input room = ⟨.bufError, input, [], stream⟩
  /-- The dictionary is needed until it is set. -/
  dictionary : ∀ stream input room, (z.inflate stream input room).ret = .needDict →
    (z.inflate stream input room).nextIn = input → (z.inflate stream input room).output = [] →
      (z.inflate stream input room).stream = stream
  /-- There is only so much output in an input. -/
  finite : ∃ total : z.Stream → List UInt8 → ℕ, ∀ stream input room,
    (z.inflate stream input room).output.length +
      total (z.inflate stream input room).stream (z.inflate stream input room).nextIn ≤ total stream input

variable (z : Zlib)

/-- The stream and the input of the call that comes after a call, if one does. -/
def next (p : z.Stream × List UInt8) : Option (z.Stream × List UInt8) :=
  let zs := z.inflate p.1 p.2 outbufSize
  if zs.ret = .ok ∨ zs.ret = .needDict ∨ zs.ret = .bufError then some (zs.stream, zs.nextIn) else none

/-- The call makes no progress, and neither has the stream ended nor is the data in error. -/
def Stalls (p : z.Stream × List UInt8) : Prop :=
  let zs := z.inflate p.1 p.2 outbufSize
  (zs.ret = .needDict ∨ zs.ret = .bufError) ∧ zs.nextIn = p.2 ∧ zs.output = []

variable {z}

theorem next_of_stalls (hz : z.Documented) {p : z.Stream × List UInt8} (h : z.Stalls p) :
    z.next p = some p := by
  obtain ⟨hret, hin, hout⟩ := h
  have hstream : (z.inflate p.1 p.2 outbufSize).stream = p.1 := by
    obtain hret | hret := hret
    · exact hz.dictionary _ _ _ hret hin hout
    · rw [hz.unchanged _ _ _ hret]
  rw [next, if_pos (Or.inr hret), hin, hstream]

end Zlib

/-! ## When it ends -/

section Ends

variable {z : Zlib}

theorem inflateRound_go {s s' : Inflating z} (h : inflateRound z s = .ok (.inl s')) :
    let zs := z.inflate s.stream s.nextIn outbufSize
    (zs.ret = .ok ∨ zs.ret = .needDict ∨ zs.ret = .bufError) ∧
      s' = ⟨zs.stream, zs.nextIn, s.result ++ zs.output⟩ := by
  unfold inflateRound at h
  cases hret : (z.inflate s.stream s.nextIn outbufSize).ret <;> simp [hret] at h ⊢ <;> exact h.symm

theorem inflateRound_follows :
    Follows (inflateRound z) (fun s => (s.stream, s.nextIn)) z.next where
  goes s s' h := by
    obtain ⟨hret, rfl⟩ := inflateRound_go h
    exact if_pos hret
  stops s h := by
    let zs := z.inflate s.stream s.nextIn outbufSize
    refine if_neg fun hret => h ⟨zs.stream, zs.nextIn, s.result ++ zs.output⟩ ?_
    unfold inflateRound
    obtain hret | hret | hret := hret <;> simp [hret, zs]

/-- **Decompressing ends**, for every input, if and only if no call stalls. The variant is the input
that is left and the output that is still in it. -/
theorem decompressGzip_ends_iff (hz : z.Documented) (compressed : List UInt8) :
    (∃ rounds r, decompressGzip z rounds compressed = some r) ↔
      ∀ stream, z.inflateInit2 = some stream →
        ∀ p ∈ places z.next (stream, availIn compressed), ¬ z.Stalls p := by
  unfold decompressGzip
  cases hinit : z.inflateInit2 with
  | none => exact iff_of_true ⟨0, _, rfl⟩ fun stream h => nomatch h
  | some stream =>
    simp only [Option.some.injEq, forall_eq']
    constructor
    · rintro ⟨rounds, r, hends⟩ p hp hstalls
      refine inflateRound_follows.not_ends (s := ⟨stream, availIn compressed, []⟩) ?_ ⟨r, rounds, hends⟩
      exact ⟨p, hp, .single (Zlib.next_of_stalls hz hstalls)⟩
    · intro hstalls
      obtain ⟨total, htotal⟩ := hz.finite
      rw [exists_comm]
      refine @Ends.of_variant _ _ _ (inflateRound z) _
        (fun s => ∀ p ∈ places z.next (s.stream, s.nextIn), ¬ z.Stalls p)
        (fun s => s.nextIn.length + total s.stream s.nextIn) hstalls ?_
      intro s s' hs hround
      have hlead := inflateRound_follows.goes s s' hround
      refine ⟨fun p hp => hs p (places_subset_of_leads hlead hp), ?_⟩
      obtain ⟨hret, rfl⟩ := inflateRound_go hround
      have hleft := (hz.consumes s.stream s.nextIn outbufSize).length_le
      have hout := htotal s.stream s.nextIn outbufSize
      have hprogress : (z.inflate s.stream s.nextIn outbufSize).nextIn ≠ s.nextIn ∨
          (z.inflate s.stream s.nextIn outbufSize).output ≠ [] := by
        obtain hok | hret := hret
        · exact hz.progress _ _ _ hok
        · by_contra hnone
          rw [not_or, not_not, not_not] at hnone
          exact hs _ Relation.ReflTransGen.refl ⟨hret, hnone⟩
      dsimp only
      obtain hin | hne := hprogress
      · have hlt : (z.inflate s.stream s.nextIn outbufSize).nextIn.length ≠ s.nextIn.length := fun heq =>
          hin ((hz.consumes s.stream s.nextIn outbufSize).eq_of_length heq)
        omega
      · have hpos := List.length_pos_iff.2 hne
        omega

/-- zlib on inputs that end within the first two bytes of the gzip header, and on inputs that begin
otherwise. -/
def Zlib.header : Zlib where
  Stream := Unit
  inflateInit2 := some ()
  inflate _ input _ :=
    if input = [] then ⟨.bufError, [], [], ()⟩
    else if input <+: [0x1f, 0x8b] then ⟨.ok, [], [], ()⟩
    else ⟨.dataError, [], [], ()⟩

theorem Zlib.header_documented : Zlib.header.Documented where
  consumes stream input room := by
    simp only [header]
    split
    · exact List.nil_suffix
    · split <;> exact List.nil_suffix
  progress stream input room h := by
    simp only [header] at h ⊢
    split at h
    · cases h
    next hne =>
      rw [if_neg hne]
      split
      · exact Or.inl (Ne.symm hne)
      · exact Or.inl (Ne.symm hne)
  unchanged stream input room h := by
    simp only [header] at h ⊢
    split at h
    next hnil =>
      rw [if_pos hnil, hnil]
      rfl
    next => split at h <;> cases h
  dictionary stream input room h := by
    simp only [header] at h
    split at h
    · cases h
    · split at h <;> cases h
  finite := by
    refine ⟨fun _ _ => 0, fun stream input room => ?_⟩
    simp only [header]
    split
    · exact Nat.le_refl 0
    · split <;> exact Nat.le_refl 0

/-- A body that is no gzip stream at all: the second byte of the header is wrong. -/
theorem decompressGzip_ends_of_wrong_header :
    ∃ rounds r, decompressGzip .header rounds [0x1f, 0x1f] = some r := by
  refine (decompressGzip_ends_iff Zlib.header_documented [0x1f, 0x1f]).2 fun stream hinit p hp => ?_
  obtain rfl : () = stream := Option.some.inj hinit
  obtain rfl | ⟨p', hlead, -⟩ := hp.cases_head
  · exact fun h => absurd h.1 (by decide)
  · cases hlead

/-- The empty body, and a download that was cut after two bytes: no number of calls suffices. -/
theorem truncated_never_ends : Zlib.header.Documented ∧
    (∀ rounds, decompressGzip .header rounds [] = none) ∧
    ∀ rounds, decompressGzip .header rounds [0x1f, 0x8b] = none := by
  have hstuck : ∀ rounds result, loop (inflateRound .header) rounds ⟨(), [], result⟩ = none := by
    intro rounds
    induction rounds with
    | zero => exact fun _ => rfl
    | succ rounds ih =>
      intro result
      exact ih (result ++ [])
  refine ⟨Zlib.header_documented, fun rounds => hstuck rounds [], fun rounds => ?_⟩
  cases rounds with
  | zero => rfl
  | succ rounds => exact hstuck rounds ([] ++ [])

end Ends

end BybitApi.Rest
