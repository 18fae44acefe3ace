import BybitApi.Lib.Runs
import BybitApi.Rest.Response
import Mathlib.Logic.Function.Basic

/-!
# The clock of the exchange

`signingTimestamp` is the local clock, corrected by what `ensureTimeSync` measured. The session is used
from any number of threads: a step of a thread is one access to `timeOffsetMs` or `lastTimeSyncMs`, one
reading of the clock, or the answer to `/v5/market/time`. That request is signed itself, so the call
nests; `depth` counts the calls of `signingTimestamp` around the one that is running.
-/

namespace BybitApi.Http

open Lib Rest

/-- What the two clocks show at a step, in milliseconds. -/
structure Moment where
  clock : ℤ
  exchange : ℤ
  deriving DecidableEq

/-- How far the exchange is ahead. -/
def Moment.skew (m : Moment) : ℤ := m.exchange - m.clock

/-- A measurement: when its request was sent, by the clock of the exchange, what the exchange answered,
and when the offset was computed. -/
structure Measure where
  sent : ℤ
  server : ℤ
  computed : Moment
  deriving DecidableEq

def Measure.offset (m : Measure) : ℤ := m.server - m.computed.clock

def timeSyncIntervalMs : ℤ := 30 * 60 * 1000

/-- Where a thread stands: before the step of this name. -/
inductive Stage where
  | idle
  /-- `ensureTimeSync` reads the clock. -/
  | check (depth : ℕ)
  | compare (depth : ℕ) (now : ℤ)
  | mark (depth : ℕ) (now : ℤ)
  /-- The request for the time is under way. -/
  | request (depth : ℕ) (sent : ℤ)
  | measure (depth : ℕ) (sent server : ℤ)
  | store (depth : ℕ) (measured : Measure)
  /-- `signingTimestamp` reads the clock. -/
  | stamp (depth : ℕ)
  | add (depth : ℕ) (read : Moment)
  deriving DecidableEq

/-- A timestamp that was signed, and the measurement whose offset is in it. -/
structure Stamp where
  timestamp : ℤ
  read : Moment
  source : Option Measure
  deriving DecidableEq

structure TimeSync where
  timeOffsetMs : ℤ
  lastTimeSyncMs : ℤ
  threads : ℕ → Stage
  -- History: no step reads what follows. The lists are latest first.
  exchange : ℤ
  source : Option Measure
  marks : List ℤ
  signed : List Stamp
  /-- The requests for the time that were sent. -/
  requests : ℕ
  /-- The marks that each thread has made since its call began. -/
  asked : ℕ → ℕ
  /-- The steps of each thread since its call began. -/
  spent : ℕ → ℕ

/-- A step of a thread; with an answer, where it waits for one. -/
structure Act where
  thread : ℕ
  moment : Moment
  reply : Option (Except Exception HttpResponse)

section System

-- `P::apiKey`, the library of the bodies, and the reader of numbers of stonky/utils.
variable (apiKey : String) (lib : JsonLibrary) (readStringAsInt64 : Json → String → ℤ → Option ℤ)

/-- The time of the exchange in an answer, cut to milliseconds; `none` where the offset is left as it is. -/
def serverTime (reply : Except Exception HttpResponse) : Option ℤ :=
  match reply with
  | .error _ => none
  | .ok response =>
    if response.resultInt ≠ 200 then none
    else
      ((lib.parse response.body).bind fun json => json.find? "result").bind fun result =>
        (readStringAsInt64 result "timeNano" 0).bind fun timeNano =>
          if timeNano ≤ 0 then none else some (timeNano / 1000000)

def TimeSync.goTo (w : TimeSync) (a : Act) (stage : Stage) : TimeSync :=
  { w with
    threads := Function.update w.threads a.thread stage
    exchange := a.moment.exchange
    spent := Function.update w.spent a.thread (w.spent a.thread + 1) }

/-- The timestamp goes out: with the request of the caller, or with the one for the time. -/
def TimeSync.sign (w : TimeSync) (a : Act) (depth : ℕ) (read : Moment) : TimeSync :=
  { w.goTo a (match depth with
      | 0 => .idle
      | depth + 1 => .request depth a.moment.exchange) with
    signed := ⟨read.clock + w.timeOffsetMs, read, w.source⟩ :: w.signed
    requests := if depth = 0 then w.requests else w.requests + 1 }

def TimeSync.step (w : TimeSync) (a : Act) : Option TimeSync :=
  match w.threads a.thread, a.reply with
  | .idle, none =>
    some { w.goTo a (.check 0) with
      asked := Function.update w.asked a.thread 0, spent := Function.update w.spent a.thread 0 }
  | .check depth, none => some (w.goTo a (.compare depth a.moment.clock))
  | .compare depth now, none =>
    some (w.goTo a (if w.lastTimeSyncMs ≠ 0 ∧ now - w.lastTimeSyncMs < timeSyncIntervalMs then .stamp depth
      else .mark depth now))
  | .mark depth now, none =>
    -- `authenticateNonPost` returns at once where there is no key.
    some { w.goTo a (if apiKey = "" then .request depth a.moment.exchange else .check (depth + 1)) with
      lastTimeSyncMs := now
      marks := now :: w.marks
      requests := if apiKey = "" then w.requests + 1 else w.requests
      asked := Function.update w.asked a.thread (w.asked a.thread + 1) }
  | .request depth sent, some reply =>
    some (w.goTo a (match serverTime lib readStringAsInt64 reply with
      | none => .stamp depth
      | some server => .measure depth sent server))
  | .measure depth sent server, none => some (w.goTo a (.store depth ⟨sent, server, a.moment⟩))
  | .store depth measured, none =>
    some { w.goTo a (.stamp depth) with timeOffsetMs := measured.offset, source := some measured }
  | .stamp depth, none => some (w.goTo a (.add depth a.moment))
  | .add depth read, none => some (w.sign a depth read)
  | _, _ => none

/-- `P` as it is constructed. -/
def TimeSync.init : TimeSync := ⟨0, 0, fun _ => .idle, 0, none, [], [], 0, fun _ => 0, fun _ => 0⟩

def timeSync : System TimeSync Act := ⟨.init, TimeSync.step apiKey lib readStringAsInt64⟩

/-- When the request was sent that the thread waits for. -/
def Stage.sentAt : Stage → Option ℤ
  | request _ sent => some sent
  | _ => none

/-- What is relied on: the clock of the exchange does not go back, and an answer shows it at some moment
between the request and the answer. -/
def Honest (w : TimeSync) (a : Act) : Prop :=
  w.exchange ≤ a.moment.exchange ∧
    ∀ sent ∈ (w.threads a.thread).sentAt, ∀ reply ∈ a.reply, ∀ server ∈ serverTime lib readStringAsInt64 reply,
      sent ≤ server ∧ server ≤ a.moment.exchange

instance (w : TimeSync) (a : Act) : Decidable (Honest lib readStringAsInt64 w a) :=
  inferInstanceAs (Decidable (_ ∧ _))

end System

/-! ## What is signed -/

/-- The exchange showed its time between the request and the moment when the offset was computed. -/
def Measure.Sound (m : Measure) : Prop := m.sent ≤ m.server ∧ m.server ≤ m.computed.exchange

/-- What a thread holds. -/
def Stage.Fits (exchange : ℤ) : Stage → Prop
  | measure _ sent server => sent ≤ server ∧ server ≤ exchange
  | store _ measured => measured.Sound
  | _ => True

/-- The offset that a measurement gives; before the first one there is none. -/
def offsetOf (source : Option Measure) : ℤ := (source.map Measure.offset).getD 0

structure TimeSync.Sound (w : TimeSync) : Prop where
  offset : w.timeOffsetMs = offsetOf w.source
  source : ∀ m ∈ w.source, m.Sound
  threads : ∀ t, (w.threads t).Fits w.exchange
  signed : ∀ s ∈ w.signed, s.timestamp = s.read.clock + offsetOf s.source ∧ ∀ m ∈ s.source, m.Sound

section Sound

variable {apiKey : String} {lib : JsonLibrary} {readStringAsInt64 : Json → String → ℤ → Option ℤ}
  {w w' : TimeSync} {a : Act} {stage : Stage}

theorem Stage.Fits.mono {exchange exchange' : ℤ} (h : stage.Fits exchange) (hle : exchange ≤ exchange') :
    stage.Fits exchange' := by
  cases stage with
  | measure depth sent server => exact ⟨h.1, h.2.trans hle⟩
  | store depth measured => exact h
  | _ => trivial

theorem TimeSync.Sound.goTo (h : w.Sound) (hle : w.exchange ≤ a.moment.exchange)
    (hfits : stage.Fits a.moment.exchange) : (w.goTo a stage).Sound := by
  refine ⟨h.offset, h.source, fun t => ?_, h.signed⟩
  dsimp only [TimeSync.goTo]
  by_cases ht : t = a.thread
  · rw [ht, Function.update_self]
    exact hfits
  · rw [Function.update_of_ne ht]
    exact (h.threads t).mono hle

theorem TimeSync.Sound.sign (h : w.Sound) (hle : w.exchange ≤ a.moment.exchange) (depth : ℕ) (read : Moment) :
    (w.sign a depth read).Sound := by
  have hgo : (w.goTo a (match depth with
      | 0 => .idle
      | depth + 1 => .request depth a.moment.exchange)).Sound := h.goTo hle (by cases depth <;> trivial)
  exact ⟨hgo.offset, hgo.source, hgo.threads,
    List.forall_mem_cons.2 ⟨⟨congrArg (read.clock + ·) h.offset, h.source⟩, h.signed⟩⟩

theorem TimeSync.Sound.step (h : w.Sound) (hC : Honest lib readStringAsInt64 w a)
    (hs : w.step apiKey lib readStringAsInt64 a = some w') : w'.Sound := by
  obtain ⟨hle, hanswer⟩ := hC
  have hthread := h.threads a.thread
  unfold TimeSync.step at hs
  split at hs <;> cases hs
  next =>
    have hgo : (w.goTo a (.check 0)).Sound := h.goTo hle trivial
    exact ⟨hgo.offset, hgo.source, hgo.threads, hgo.signed⟩
  next => exact h.goTo hle trivial
  next =>
    refine h.goTo hle ?_
    split <;> trivial
  next depth now _ _ =>
    have hgo : (w.goTo a (if apiKey = "" then .request depth a.moment.exchange else .check (depth + 1))).Sound := by
      refine h.goTo hle ?_
      split <;> trivial
    exact ⟨hgo.offset, hgo.source, hgo.threads, hgo.signed⟩
  next depth sent reply hstage hreply =>
    refine h.goTo hle ?_
    cases hserver : serverTime lib readStringAsInt64 reply with
    | none => trivial
    | some server => exact hanswer sent (by rw [hstage]; rfl) reply hreply server hserver
  next depth sent server hstage _ =>
    rw [hstage] at hthread
    exact h.goTo hle ⟨hthread.1, hthread.2.trans hle⟩
  next depth measured hstage _ =>
    rw [hstage] at hthread
    have hgo : (w.goTo a (.stamp depth)).Sound := h.goTo hle trivial
    exact ⟨rfl, fun m hm => Option.mem_some.1 hm ▸ hthread, hgo.threads, hgo.signed⟩
  next => exact h.goTo hle trivial
  next depth read _ _ => exact h.sign hle depth read

theorem TimeSync.Sound.init : TimeSync.init.Sound :=
  ⟨rfl, fun _ hm => (nomatch hm), fun _ => trivial, fun _ hs => absurd hs List.not_mem_nil⟩

theorem sound_of_reach (h : (timeSync apiKey lib readStringAsInt64).Reach (Honest lib readStringAsInt64) w) :
    w.Sound :=
  h.invariant TimeSync.Sound.init fun _ _ _ _ hC hs hI => hI.step hC hs

end Sound

section Ahead

def timeLib : JsonLibrary := ⟨fun _ => some (.obj [("result", .obj [])]), fun _ _ => ""⟩

/-- A call on a machine whose clock is three seconds ahead; each step takes a millisecond, and the time is
answered after forty. -/
def aheadCall : List Act :=
  (List.range 8).map (fun k => ⟨0, ⟨4000 + k, 1000 + k⟩, none⟩) ++
    [⟨0, ⟨4048, 1048⟩, some (.ok (HttpResponse.ok "time"))⟩] ++
    (List.range 4).map (fun k => ⟨0, ⟨4049 + k, 1049 + k⟩, none⟩)

end Ahead

/-! ## How often the time is asked for -/

/-- Only this thread uses the session, and its clock shows no zero. -/
def Alone (thread : ℕ) (_ : TimeSync) (a : Act) : Prop := a.thread = thread ∧ a.moment.clock ≠ 0

instance (thread : ℕ) (w : TimeSync) (a : Act) : Decidable (Alone thread w a) :=
  inferInstanceAs (Decidable (_ ∧ _))

def Stage.depth : Stage → ℕ
  | idle => 0
  | check depth | compare depth _ | mark depth _ | request depth _ | measure depth _ _ | store depth _ | stamp depth
  | add depth _ => depth

/-- The steps that are left to a call, at most, without the eight that come with each further mark. -/
def Stage.left : Stage → ℕ
  | idle => 0
  | check depth => 4 + 5 * depth
  | compare depth _ => 3 + 5 * depth
  | mark depth _ => 2 + 5 * depth
  | request depth _ => 5 + 5 * depth
  | measure depth _ _ => 4 + 5 * depth
  | store depth _ => 3 + 5 * depth
  | stamp depth => 2 + 5 * depth
  | add depth _ => 1 + 5 * depth

/-- A thread that is about to mark the session has found the last mark half an hour old. -/
def Stage.Late (last : ℤ) : Stage → Prop
  | compare _ now => now ≠ 0
  | mark _ now => now ≠ 0 ∧ (last ≠ 0 → last + timeSyncIntervalMs ≤ now)
  | _ => True

structure TimeSync.Once (thread : ℕ) (w : TimeSync) : Prop where
  last : w.lastTimeSyncMs = w.marks.headD 0
  apart : w.marks.Pairwise fun later earlier => earlier + timeSyncIntervalMs ≤ later
  nonzero : ∀ mark ∈ w.marks, mark ≠ 0
  late : (w.threads thread).Late w.lastTimeSyncMs
  /-- A call that is nested has its request still to send. -/
  requests : w.requests + (w.threads thread).depth = w.marks.length
  spent : w.spent thread + (w.threads thread).left ≤ 4 + 8 * w.asked thread

section Once

variable {apiKey : String} {lib : JsonLibrary} {readStringAsInt64 : Json → String → ℤ → Option ℤ}
  {thread : ℕ} {w w' : TimeSync} {a : Act} {stage : Stage}

theorem TimeSync.Once.goTo (h : w.Once thread) (ha : a.thread = thread) (hlate : stage.Late w.lastTimeSyncMs)
    (hdepth : stage.depth = (w.threads thread).depth) (hleft : stage.left < (w.threads thread).left) :
    (w.goTo a stage).Once thread := by
  have hrequests := h.requests
  have hspent := h.spent
  subst ha
  refine ⟨h.last, h.apart, h.nonzero, ?_, ?_, ?_⟩
  · simpa only [TimeSync.goTo, Function.update_self] using hlate
  · simpa only [TimeSync.goTo, Function.update_self, hdepth] using hrequests
  · simp only [TimeSync.goTo, Function.update_self]
    omega

/-- A mark is half an hour after all of those before it. -/
theorem TimeSync.Once.mark {now : ℤ} (h : w.Once thread)
    (hlate : w.lastTimeSyncMs ≠ 0 → w.lastTimeSyncMs + timeSyncIntervalMs ≤ now) :
    (now :: w.marks).Pairwise fun later earlier => earlier + timeSyncIntervalMs ≤ later := by
  refine List.pairwise_cons.2 ⟨fun earlier hmem => ?_, h.apart⟩
  have hlast := h.last
  cases hmarks : w.marks with
  | nil =>
    rw [hmarks] at hmem
    cases hmem
  | cons latest marks =>
    rw [hmarks] at hmem hlast
    have hle : earlier ≤ latest := by
      rcases List.mem_cons.1 hmem with rfl | hmem
      · exact le_rfl
      · have hapart := h.apart
        rw [hmarks] at hapart
        have hbefore := List.rel_of_pairwise_cons hapart hmem
        simp only [timeSyncIntervalMs] at hbefore
        omega
    have hnow := hlate (hlast ▸ h.nonzero latest (hmarks ▸ List.mem_cons_self))
    rw [hlast] at hnow
    exact (Int.add_le_add_right hle _).trans hnow

theorem TimeSync.Once.begin (h : w.Once thread) (ha : a.thread = thread) (hidle : w.threads thread = .idle) :
    ({ w.goTo a (.check 0) with
      asked := Function.update w.asked a.thread 0
      spent := Function.update w.spent a.thread 0 } : TimeSync).Once thread := by
  have hrequests := h.requests
  rw [hidle] at hrequests
  subst ha
  refine ⟨h.last, h.apart, h.nonzero, ?_, ?_, ?_⟩
  · simp only [TimeSync.goTo, Function.update_self]
    trivial
  · simpa only [TimeSync.goTo, Function.update_self, Stage.depth] using hrequests
  · simp only [TimeSync.goTo, Function.update_self]
    exact le_rfl

/-- The thread marks the session and goes on to the request, which it signs first if there is a key. -/
theorem TimeSync.Once.marks (h : w.Once thread) (ha : a.thread = thread) {depth : ℕ} {now : ℤ}
    (hstage : w.threads thread = .mark depth now) :
    ({ w.goTo a (if apiKey = "" then .request depth a.moment.exchange else .check (depth + 1)) with
      lastTimeSyncMs := now
      marks := now :: w.marks
      requests := if apiKey = "" then w.requests + 1 else w.requests
      asked := Function.update w.asked a.thread (w.asked a.thread + 1) } : TimeSync).Once thread := by
  have hlate := h.late
  have hrequests := h.requests
  have hspent := h.spent
  rw [hstage] at hlate hrequests hspent
  simp only [Stage.depth, Stage.left] at hrequests hspent
  subst ha
  refine ⟨rfl, h.mark hlate.2, List.forall_mem_cons.2 ⟨hlate.1, h.nonzero⟩, ?_, ?_, ?_⟩
  · simp only [TimeSync.goTo, Function.update_self]
    split <;> trivial
  · simp only [TimeSync.goTo, Function.update_self, List.length_cons]
    split <;> simp only [Stage.depth] <;> omega
  · simp only [TimeSync.goTo, Function.update_self]
    split <;> simp only [Stage.left] <;> omega

theorem TimeSync.Once.sign (h : w.Once thread) (ha : a.thread = thread) {depth : ℕ} {read : Moment}
    (hstage : w.threads thread = .add depth read) : (w.sign a depth read).Once thread := by
  have hrequests := h.requests
  have hspent := h.spent
  rw [hstage] at hrequests hspent
  simp only [Stage.depth, Stage.left] at hrequests hspent
  subst ha
  cases depth with
  | zero =>
    refine ⟨h.last, h.apart, h.nonzero, ?_, ?_, ?_⟩
    · simp only [TimeSync.sign, TimeSync.goTo, Function.update_self]
      trivial
    · simpa only [TimeSync.sign, TimeSync.goTo, Function.update_self, Stage.depth, if_true] using hrequests
    · simp only [TimeSync.sign, TimeSync.goTo, Function.update_self, Stage.left]
      omega
  | succ depth =>
    refine ⟨h.last, h.apart, h.nonzero, ?_, ?_, ?_⟩
    · simp only [TimeSync.sign, TimeSync.goTo, Function.update_self]
      trivial
    · simp only [TimeSync.sign, TimeSync.goTo, Function.update_self, Stage.depth, Nat.succ_ne_zero, if_false]
      omega
    · simp only [TimeSync.sign, TimeSync.goTo, Function.update_self, Stage.left]
      omega

theorem TimeSync.Once.step (h : w.Once thread) (hC : Alone thread w a)
    (hs : w.step apiKey lib readStringAsInt64 a = some w') : w'.Once thread := by
  obtain ⟨rfl, hclock⟩ := hC
  have hlate := h.late
  unfold TimeSync.step at hs
  split at hs <;> cases hs
  next hstage _ => exact h.begin rfl hstage
  next depth hstage _ => exact h.goTo rfl hclock (by rw [hstage]; rfl) (by simp [hstage, Stage.left])
  next depth now hstage _ =>
    rw [hstage] at hlate
    split
    · exact h.goTo rfl trivial (by rw [hstage]; rfl) (by simp [hstage, Stage.left])
    · next hstale =>
      refine h.goTo rfl ⟨hlate, fun hlast => ?_⟩ (by rw [hstage]; rfl) (by simp [hstage, Stage.left])
      have hlong : ¬ now - w.lastTimeSyncMs < timeSyncIntervalMs := fun hlt => hstale ⟨hlast, hlt⟩
      omega
  next depth now hstage _ => exact h.marks rfl hstage
  next depth sent reply hstage _ =>
    split <;> exact h.goTo rfl trivial (by rw [hstage]; rfl) (by simp [hstage, Stage.left])
  next depth sent server hstage _ =>
    exact h.goTo rfl trivial (by rw [hstage]; rfl) (by simp [hstage, Stage.left])
  next depth measured hstage _ =>
    have hgo : (w.goTo a (.stamp depth)).Once a.thread :=
      h.goTo rfl trivial (by rw [hstage]; rfl) (by simp [hstage, Stage.left])
    exact ⟨hgo.last, hgo.apart, hgo.nonzero, hgo.late, hgo.requests, hgo.spent⟩
  next depth hstage _ => exact h.goTo rfl trivial (by rw [hstage]; rfl) (by simp [hstage, Stage.left])
  next depth read hstage _ => exact h.sign rfl hstage

/-- A call is never stuck; where it waits for an answer, any will do. -/
theorem TimeSync.step_isSome (w : TimeSync) (thread : ℕ) (moment : Moment)
    (answer : Except Exception HttpResponse) :
    ∃ reply ∈ [none, some answer], (w.step apiKey lib readStringAsInt64 ⟨thread, moment, reply⟩).isSome = true := by
  cases hstage : w.threads thread with
  | request depth sent => exact ⟨some answer, by simp, by simp [TimeSync.step, hstage]⟩
  | _ => exact ⟨none, by simp, by simp [TimeSync.step, hstage]⟩

/-- **One thread asks for the time every half hour.** However the requests for the time end and however long the
steps take, the session is marked at most once in thirty minutes, and no more requests are sent than marks
are made; and a call of `signingTimestamp` is done after four steps and eight for each of its marks. -/
theorem time_asked_once (apiKey : String) (lib : JsonLibrary)
    (readStringAsInt64 : Json → String → ℤ → Option ℤ) (thread : ℕ) (w : TimeSync)
    (h : (timeSync apiKey lib readStringAsInt64).Reach (Alone thread) w) :
    (w.marks.Pairwise fun later earlier => earlier + timeSyncIntervalMs ≤ later) ∧
      w.requests ≤ w.marks.length ∧ w.spent thread ≤ 4 + 8 * w.asked thread ∧
      ∀ moment answer, ∃ reply ∈ [none, some answer],
        (w.step apiKey lib readStringAsInt64 ⟨thread, moment, reply⟩).isSome = true := by
  have hinit : TimeSync.init.Once thread :=
    ⟨rfl, .nil, fun _ hm => absurd hm List.not_mem_nil, trivial, rfl, Nat.zero_le _⟩
  have hinv : w.Once thread := h.invariant hinit fun _ _ _ _ hC hs hI => hI.step hC hs
  exact ⟨hinv.apart, (Nat.le_add_right _ _).trans_eq hinv.requests, (Nat.le_add_right _ _).trans hinv.spent,
    w.step_isSome thread⟩

/-- The request for the time fails; half an hour later the session asks again. -/
theorem time_asked_once_failed : ∃ w : TimeSync, w.marks = [1804001, 4001] ∧ w.requests ≤ 2 ∧ w.spent 0 ≤ 12 := by
  obtain ⟨w, hw, hmarks, hasked⟩ := System.Reach.exists_of_exec (S := timeSync "" timeLib fun _ _ _ => none)
    (C := Alone 0)
    (l := (List.range 4).map (fun k => ⟨0, ⟨4000 + k, 0⟩, none⟩) ++
      [⟨0, ⟨4048, 0⟩, some (.error (.transportError "timeout"))⟩, ⟨0, ⟨4050, 0⟩, none⟩, ⟨0, ⟨4051, 0⟩, none⟩] ++
      (List.range 4).map (fun k => ⟨0, ⟨1804000 + k, 0⟩, none⟩))
    (P := fun w => w.marks = [1804001, 4001] ∧ w.asked 0 = 1) (by decide +kernel)
  obtain ⟨-, hrequests, hspent, -⟩ := time_asked_once "" timeLib _ 0 w hw
  rw [hmarks] at hrequests
  rw [hasked] at hspent
  exact ⟨w, hmarks, hrequests, hspent⟩

end Once

end BybitApi.Http
