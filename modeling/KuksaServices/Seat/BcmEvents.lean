import KuksaServices.Seat.Bcm

/-!
# Events of the broadcast manager

`RunForever` reads every message into the same buffer and hands the frame in
it to the callback. A message about a frame that changed holds the frame. One
about a frame that stays away is a header only, and the callback gets the
frame of an earlier message. It is told the right id exactly where this frame
was of that id, as with one subscription after its first frame
(`events_answer_iff`).
-/

namespace KuksaServices.Seat

/-- `sdv::hal::CanFrame`. -/
structure DataFrame where
  canId : UInt32
  data : List UInt8
  deriving DecidableEq, Repr

/-- `TX_SEND`, `RX_TIMEOUT` and `RX_CHANGED` of `linux/can/bcm.h`. -/
def txSend : Nat := 4
def rxTimeout : Nat := 11
def rxChanged : Nat := 12

def sendFrame (frame : DataFrame) : BcmMessageRaw where
  msgHead := { BcmMessageRaw.zero.msgHead with
    nframes := 1
    canId := frame.canId.toNat
    opcode := txSend }
  frame := {
    canId := frame.canId.toNat
    canDlc := frame.data.length % 256
    data := copyMask frame.data 0 BcmMessageRaw.zero.frame.data }

/-- What the broadcast manager reports. A frame that changed is one that some
node has sent. -/
inductive Report where
  | changed (frame : DataFrame)
  | timeout (canId : UInt32)
  | other (opcode : Nat) (canId : UInt32) (frame? : Option CanFrame)
  deriving DecidableEq, Repr

def Report.head (r : Report) : BcmMsgHead :=
  match r with
  | .changed frame => { BcmMessageRaw.zero.msgHead with opcode := rxChanged, canId := frame.canId.toNat, nframes := 1 }
  | .timeout canId => { BcmMessageRaw.zero.msgHead with opcode := rxTimeout, canId := canId.toNat }
  | .other opcode canId frame? => { BcmMessageRaw.zero.msgHead with
      opcode := opcode, canId := canId.toNat, nframes := frame?.elim 0 fun _ => 1 }

def Report.frame? : Report → Option CanFrame
  | .changed frame => some (sendFrame frame).frame
  | .timeout _ => none
  | .other _ _ frame? => frame?

/-- `read` into the buffer: without a frame, the one there stays. -/
def Report.into (r : Report) (msg : BcmMessageRaw) : BcmMessageRaw := ⟨r.head, r.frame?.getD msg.frame⟩

inductive ReadOutcome where
  | failed
  | report (r : Report)
  deriving DecidableEq, Repr

inductive BcmEventType where
  | dataChanged
  | dataTimeout
  | error
  deriving DecidableEq, Repr

/-- A call of the callback. The frame of an error is not set. -/
structure BcmCall where
  eventType : BcmEventType
  frame? : Option DataFrame
  deriving DecidableEq, Repr

def bcmEventType? (opcode : Nat) : Option BcmEventType :=
  if opcode = rxChanged then some .dataChanged
  else if opcode = rxTimeout then some .dataTimeout
  else none

def CanFrame.dataFrame (frame : CanFrame) : DataFrame where
  canId := .ofNat frame.canId
  data := if frame.canDlc > 0 then frame.data.toList.take frame.canDlc else []

/-- The loop of `RunForever`, with what has been read before each call. -/
def runForever (msg : BcmMessageRaw) : List ReadOutcome → List (ReadOutcome × BcmCall)
  | [] => []
  | .failed :: reads => (.failed, ⟨.error, none⟩) :: runForever msg reads
  | .report r :: reads =>
    match bcmEventType? (r.into msg).msgHead.opcode with
    | none => runForever (r.into msg) reads
    | some type => (.report r, ⟨type, some (r.into msg).frame.dataFrame⟩) :: runForever (r.into msg) reads

def lastFrame (frame : CanFrame) : List ReadOutcome → CanFrame
  | [] => frame
  | .failed :: reads => lastFrame frame reads
  | .report r :: reads => lastFrame (r.frame?.getD frame) reads

def Answers : ReadOutcome → BcmCall → Prop
  | .failed, call => call = ⟨.error, none⟩
  | .report (.changed frame), call => call = ⟨.dataChanged, some frame⟩
  | .report (.timeout canId), call => ∃ data, call = ⟨.dataTimeout, some ⟨canId, data⟩⟩
  | .report (.other ..), _ => False

/-- A frame has eight bytes at most; other messages are of other kinds. -/
def ReadOutcome.Proper : ReadOutcome → Prop
  | .report (.changed frame) => frame.data.length ≤ 8
  | .report (.other opcode _ _) => opcode ≠ rxChanged ∧ opcode ≠ rxTimeout
  | _ => True

def ReadOutcome.isTold : ReadOutcome → Bool
  | .report (.other ..) => false
  | _ => true

/-- A frame that is sent and received is the same frame. -/
theorem dataFrame_sendFrame (frame : DataFrame) (h : frame.data.length ≤ 8) :
    (sendFrame frame).frame.dataFrame = frame := by
  have hdata : (sendFrame frame).frame.data.toList = frame.data ++ List.replicate (8 - frame.data.length) 0 :=
    subscribeCyclicChange_data frame.canId 0 h
  have hdlc : (sendFrame frame).frame.canDlc = frame.data.length := Nat.mod_eq_of_lt (by omega)
  obtain ⟨canId, data⟩ := frame
  unfold CanFrame.dataFrame
  rw [hdata, hdlc]
  congr 1
  · exact UInt32.ofNat_toNat
  · split
    · exact List.take_left
    · have hnil : data.length = 0 := by
        simp only at *
        omega
      exact (List.length_eq_zero_iff.mp hnil).symm

theorem runForever_changed (msg : BcmMessageRaw) (h : frame.data.length ≤ 8) (reads : List ReadOutcome) :
    runForever msg (.report (.changed frame) :: reads) =
      (.report (.changed frame), ⟨.dataChanged, some frame⟩) ::
        runForever (Report.into (.changed frame) msg) reads := by
  have hframe : (Report.into (.changed frame) msg).frame.dataFrame = frame := dataFrame_sendFrame frame h
  change (_, BcmCall.mk .dataChanged (some (Report.into (.changed frame) msg).frame.dataFrame)) :: _ = _
  rw [hframe]

theorem runForever_timeout (msg : BcmMessageRaw) (canId : UInt32) (reads : List ReadOutcome) :
    runForever msg (.report (.timeout canId) :: reads) =
      (.report (.timeout canId), ⟨.dataTimeout, some msg.frame.dataFrame⟩) ::
        runForever (Report.into (.timeout canId) msg) reads := rfl

theorem runForever_other (msg : BcmMessageRaw) (h : opcode ≠ rxChanged ∧ opcode ≠ rxTimeout) (canId : UInt32)
    (frame? : Option CanFrame) (reads : List ReadOutcome) :
    runForever msg (.report (.other opcode canId frame?) :: reads) =
      runForever (Report.into (.other opcode canId frame?) msg) reads := by
  have htype : bcmEventType? opcode = none := by simp [bcmEventType?, h.1, h.2]
  simp only [runForever, Report.into, Report.head, htype]

/-- Every timeout finds a frame of its id in the buffer. -/
def TimeoutsFind (frame : CanFrame) (reads : List ReadOutcome) : Prop :=
  ∀ before canId after, reads = before ++ .report (.timeout canId) :: after →
    UInt32.ofNat (lastFrame frame before).canId = canId

theorem lastFrame_cons (frame : CanFrame) (read : ReadOutcome) (reads : List ReadOutcome) :
    lastFrame frame (read :: reads) = lastFrame (lastFrame frame [read]) reads := by
  cases read <;> rfl

theorem timeoutsFind_cons (frame : CanFrame) (read : ReadOutcome) (reads : List ReadOutcome) :
    TimeoutsFind frame (read :: reads) ↔
      (∀ canId, read = .report (.timeout canId) → UInt32.ofNat frame.canId = canId) ∧
        TimeoutsFind (lastFrame frame [read]) reads := by
  constructor
  · intro hall
    refine ⟨fun canId heq => ?_, fun before canId after heq => ?_⟩
    · exact hall [] canId reads (by rw [heq]; rfl)
    · rw [← lastFrame_cons]
      exact hall (read :: before) canId after (by rw [heq]; rfl)
  · rintro ⟨hfirst, hlater⟩ before canId after heq
    cases before with
    | nil =>
      obtain ⟨hhead, -⟩ := List.cons.inj heq
      exact hfirst canId hhead
    | cons first before =>
      obtain ⟨rfl, htail⟩ := List.cons.inj heq
      rw [lastFrame_cons]
      exact hlater before canId after htail

/-- For every content of the buffer and all messages: each message but those
of other kinds is told once, in order; and all calls tell what was read just
before them exactly if the last frame before each timeout is of its id. -/
theorem events_answer_iff (msg : BcmMessageRaw) (reads : List ReadOutcome) (h : ∀ r ∈ reads, r.Proper) :
    (runForever msg reads).map Prod.fst = reads.filter ReadOutcome.isTold ∧
      ((∀ e ∈ runForever msg reads, Answers e.1 e.2) ↔ TimeoutsFind msg.frame reads) := by
  induction reads generalizing msg with
  | nil =>
    refine ⟨rfl, iff_of_true (fun e he => by cases he) ?_⟩
    intro before canId after heq
    simp at heq
  | cons read reads ih =>
    obtain ⟨hread, hrest⟩ := List.forall_mem_cons.mp h
    rw [timeoutsFind_cons]
    cases read with
    | failed =>
      obtain ⟨htold, hanswers⟩ := ih msg hrest
      refine ⟨congrArg _ htold, ?_⟩
      rw [runForever, List.forall_mem_cons, hanswers]
      exact and_congr (iff_of_true rfl (fun canId heq => by cases heq)) Iff.rfl
    | report r =>
      obtain ⟨htold, hanswers⟩ := ih (r.into msg) hrest
      cases r with
      | changed frame =>
        rw [runForever_changed msg hread, List.forall_mem_cons, hanswers]
        exact ⟨congrArg _ htold, and_congr (iff_of_true rfl (fun canId heq => by cases heq)) Iff.rfl⟩
      | timeout canId =>
        rw [runForever_timeout, List.forall_mem_cons, hanswers]
        refine ⟨congrArg _ htold, and_congr ⟨?_, fun hfind => ?_⟩ Iff.rfl⟩
        · rintro ⟨data, hcall⟩ canId' heq
          cases heq
          exact congrArg DataFrame.canId (Option.some.inj (BcmCall.mk.inj hcall).2)
        · have hid : msg.frame.dataFrame.canId = canId := hfind canId rfl
          exact ⟨msg.frame.dataFrame.data, by rw [← hid]⟩
      | other opcode canId frame? =>
        rw [runForever_other msg hread, hanswers]
        exact ⟨htold, (and_iff_right fun canId heq => by cases heq).symm⟩

def benchSeen : List ReadOutcome := [.report (.changed ⟨0x712, [4, 0, 42]⟩), .failed, .report (.timeout 0x712)]

theorem events_answer_seen : (runForever .zero benchSeen).map Prod.fst = benchSeen ∧
    ∀ e ∈ runForever .zero benchSeen, Answers e.1 e.2 := by
  have hproper : ∀ r ∈ benchSeen, r.Proper := by
    intro r hr
    simp only [benchSeen, List.mem_cons, List.not_mem_nil, or_false] at hr
    rcases hr with rfl | rfl | rfl
    · simp [ReadOutcome.Proper]
    · trivial
    · trivial
  obtain ⟨htold, hiff⟩ := events_answer_iff .zero benchSeen hproper
  refine ⟨htold, hiff.mpr ?_⟩
  rw [benchSeen, timeoutsFind_cons, timeoutsFind_cons, timeoutsFind_cons]
  refine ⟨fun _ heq => (by cases heq), fun _ heq => (by cases heq), fun canId heq => ?_, ?_⟩
  · cases heq
    decide
  · intro before canId after heq
    simp at heq

/-- Of two subscriptions the second times out, and the callback is told that
the first has. -/
theorem timeout_told_of_other : runForever .zero
    [.report (.changed ⟨0x712, [4, 0, 42]⟩), .report (.timeout 0x705)] =
      [(.report (.changed ⟨0x712, [4, 0, 42]⟩), ⟨.dataChanged, some ⟨0x712, [4, 0, 42]⟩⟩),
        (.report (.timeout 0x705), ⟨.dataTimeout, some ⟨0x712, [4, 0, 42]⟩⟩)] := by
  decide

end KuksaServices.Seat
