import AutomaticCache.Http.Message
import AutomaticCache.Lib.Run
import AutomaticCache.Proxy.Remote

/-!
# The printing proxy

`handleHttpConn` of `HttpPrintingProxy` waits for two signals: one from the goroutine that handles
the request, and one from `printRequest`, which reads the client's connection and feeds what it
reads to the handling goroutine through a pipe. `printRequest` signals only when the client has
ended its stream, and a failed read or a closed pipe makes it leave without a signal; the handling
goroutine leaves without one when it cannot parse the request or reach the target of one that it
intercepts. A third channel couples `connectClientToServerDirectly` and its writer.

What is read, parsed and copied, and how it ends, is the environment's choice. A return comes with
the closes that it has deferred. `printResponse`, whose channel is nil, is left out.
-/

namespace AutomaticCache

namespace Proxy

namespace HttpPrintingProxy

open Bytes Runs

structure InterceptLink where
  url : Bytes
  intercept : Bool

def parseHttpRequest (read : Except GoError Request) : Except GoError Request :=
  match read with
  | .error err => .error err
  | .ok request => .ok { request with url := { request.url with host := request.host } }

/-- With the links of `interceptConfig`. -/
def shouldIntercept (interceptLinks : List InterceptLink) (request : Request) : Bool :=
  interceptLinks.any fun link => link.intercept && contains request.url.string link.url

/-! ## The goroutines -/

/-- Where `handleHttpConn` stands. -/
inductive HandleHttpConn
  /-- At `<-ready`. -/
  | ready
  /-- At `<-printRequestReady`. -/
  | printRequestReady
  | returned
  deriving DecidableEq

/-- Where the handling goroutine stands. -/
inductive Handling
  /-- In `parseHttpRequest`, with nothing read yet. -/
  | parse
  /-- In `parseHttpRequest`, with something read. -/
  | scan
  | dial (intercepts : Bool)
  /-- At `request.Write(targetConn)` in `intercept`. -/
  | write
  /-- At `io.Copy(conn, targetConn)`. -/
  | copy
  /-- At `<-ready` in `connectClientToServerDirectly`. -/
  | await
  /-- At `ready <- struct{}{}`. -/
  | send
  | returned
  deriving DecidableEq

/-- Where `printRequest` stands. -/
inductive PrintRequest
  /-- The `TeeReader` reads the connection. -/
  | read
  /-- It writes what it has read to the pipe. -/
  | write
  /-- At `ready <- struct{}{}`. -/
  | send
  | returned
  deriving DecidableEq

/-- Where the goroutine of `connectClientToServerDirectly` stands. -/
inductive Writer
  | absent
  | write
  /-- At `ready <- struct{}{}`. -/
  | send
  | returned
  deriving DecidableEq

/-- Where the goroutine of `intercept` that reads the response stands. -/
inductive ResponseReader
  | absent
  | read
  /-- At `resChan <- res`, or with nil. -/
  | send (ok : Bool)
  | returned
  deriving DecidableEq

/-- Where the one that writes it stands. -/
inductive Responder
  | absent
  /-- At `<-resChan`. -/
  | receive
  | write
  | returned
  deriving DecidableEq

structure State where
  conn : HandleHttpConn
  handling : Handling
  printer : PrintRequest
  writer : Writer
  reader : ResponseReader
  responder : Responder
  pipeClosed : Bool
  /-- The client's connection was closed by the proxy. -/
  connClosed : Bool
  deriving DecidableEq

def init : State := ⟨.ready, .parse, .read, .absent, .absent, .absent, false, false⟩

/-- How a read of the client's connection ends. -/
inductive Read
  | data
  | eof
  | fails
  deriving DecidableEq

inductive Act
  | read (got : Read)
  /-- The pipe is read, to the end of what was written or not. -/
  | pull (last : Bool)
  /-- `io.ErrClosedPipe`. -/
  | broken
  | parsed (read : Except GoError Request)
  | dial (fails : Bool)
  /-- `request.Write` in `intercept` ends, and its error is not looked at. -/
  | forwarded
  /-- `io.Copy(conn, targetConn)` ends. -/
  | copied (fails : Bool)
  /-- `request.Write` in `connectClientToServerDirectly` ends. -/
  | wrote (fails : Bool)
  /-- The two meet on the channel of `connectClientToServerDirectly`. -/
  | written
  /-- The two meet on `ready`. -/
  | ready
  /-- The two meet on `printRequestReady`. -/
  | printed
  /-- `http.ReadResponse` ends. -/
  | answered (ok : Bool)
  /-- The two meet on `resChan`. -/
  | received
  /-- `res.Write(multiWriter)` ends. -/
  | responded

/-- Some goroutine reads the pipe: its own request, or the body of the one that it forwards. -/
def State.Pulls (s : State) : Prop :=
  s.handling = .parse ∨ s.handling = .scan ∨ s.handling = .write ∨ s.writer = .write

instance (s : State) : Decidable s.Pulls := inferInstanceAs (Decidable (_ ∨ _))

def step (interceptLinks : List InterceptLink) (s : State) : Act → Option State
  | .read got =>
    -- of a connection that is closed nothing is read
    if s.printer = .read ∧ (s.connClosed = true → got = .fails) then
      some { s with
        printer := match got with
          | .data => .write
          | .eof => .send
          | .fails => .returned }
    else none
  | .pull last =>
    if s.printer = .write ∧ s.pipeClosed = false ∧ s.Pulls then
      some { s with
        printer := if last then .read else .write
        handling := if s.handling = .parse then .scan else s.handling }
    else none
  | .broken =>
    if s.printer = .write ∧ s.pipeClosed = true then some
      { s with printer := .returned } else none
  | .parsed read =>
    match s.handling with
    | .scan =>
      match parseHttpRequest read with
      | .error _ => some { s with handling := .returned, pipeClosed := true }
      | .ok request => some { s with handling := .dial (shouldIntercept interceptLinks request) }
    | _ => none
  | .dial fails =>
    match s.handling with
    | .dial true =>
      some (if fails then { s with handling := .returned, pipeClosed := true }
        else { s with handling := .write })
    | .dial false =>
      some (if fails then { s with handling := .send }
        else { s with handling := .copy, writer := .write })
    | _ => none
  | .forwarded =>
    match s.handling with
    | .write => some { s with handling := .send, reader := .read, responder := .receive }
    | _ => none
  | .copied fails =>
    match s.handling with
    | .copy =>
      some (if fails then { s with handling := .send, connClosed := true }
        else { s with handling := .await })
    | _ => none
  | .wrote fails =>
    match s.writer with
    | .write => some { s with writer := if fails then .returned else .send }
    | _ => none
  | .written =>
    if s.handling = .await ∧ s.writer = .send then
      some { s with handling := .send, writer := .returned, connClosed := true }
    else none
  | .ready =>
    if s.conn = .ready ∧ s.handling = .send then
      some { s with conn := .printRequestReady, handling := .returned, pipeClosed := true }
    else none
  | .printed =>
    if s.conn = .printRequestReady ∧ s.printer = .send then
      some { s with conn := .returned, printer := .returned, connClosed := true }
    else none
  | .answered ok =>
    match s.reader with
    | .read => some { s with reader := .send ok }
    | _ => none
  | .received =>
    match s.reader, s.responder with
    | .send true, .receive => some { s with reader := .returned, responder := .write }
    | .send false, .receive =>
      some { s with reader := .returned, responder := .returned, connClosed := true }
    | _, _ => none
  | .responded =>
    match s.responder with
    | .write => some { s with responder := .returned, connClosed := true }
    | _ => none

/-- A call of `handleHttpConn` and the goroutines that it starts. -/
def system (interceptLinks : List InterceptLink) : System State Act :=
  ⟨init, step interceptLinks⟩

/-- What a step can do. -/
inductive Step (interceptLinks : List InterceptLink) (s : State) : Act → State → Prop
  | data (h : s.printer = .read) (hconn : s.connClosed = false) :
    Step interceptLinks s (.read .data) { s with printer := .write }
  | eof (h : s.printer = .read) (hconn : s.connClosed = false) :
    Step interceptLinks s (.read .eof) { s with printer := .send }
  | readFails (h : s.printer = .read) :
    Step interceptLinks s (.read .fails) { s with printer := .returned }
  | pull (last : Bool) (h : s.printer = .write) (hpulls : s.Pulls) :
    Step interceptLinks s (.pull last) { s with
      printer := if last then .read else .write
      handling := if s.handling = .parse then .scan else s.handling }
  | broken (h : s.printer = .write) : Step interceptLinks s .broken { s with printer := .returned }
  | parseFails {read : Except GoError Request} {err : GoError} (h : s.handling = .scan)
    (hread : parseHttpRequest read = .error err) :
    Step interceptLinks s (.parsed read) { s with handling := .returned, pipeClosed := true }
  | parsed {read : Except GoError Request} {request : Request} (h : s.handling = .scan)
    (hread : parseHttpRequest read = .ok request) :
    Step interceptLinks s (.parsed read)
      { s with handling := .dial (shouldIntercept interceptLinks request) }
  | interceptFails (h : s.handling = .dial true) :
    Step interceptLinks s (.dial true) { s with handling := .returned, pipeClosed := true }
  | intercept (h : s.handling = .dial true) :
    Step interceptLinks s (.dial false) { s with handling := .write }
  | dialFails (h : s.handling = .dial false) :
    Step interceptLinks s (.dial true) { s with handling := .send }
  | dial (h : s.handling = .dial false) :
    Step interceptLinks s (.dial false) { s with handling := .copy, writer := .write }
  | forwarded (h : s.handling = .write) :
    Step interceptLinks s .forwarded
      { s with handling := .send, reader := .read, responder := .receive }
  | copyFails (h : s.handling = .copy) :
    Step interceptLinks s (.copied true) { s with handling := .send, connClosed := true }
  | copied (h : s.handling = .copy) :
    Step interceptLinks s (.copied false) { s with handling := .await }
  | writeFails (h : s.writer = .write) :
    Step interceptLinks s (.wrote true) { s with writer := .returned }
  | wrote (h : s.writer = .write) : Step interceptLinks s (.wrote false) { s with writer := .send }
  | written (h : s.handling = .await) (hw : s.writer = .send) :
    Step interceptLinks s .written
      { s with handling := .send, writer := .returned, connClosed := true }
  | ready (h : s.conn = .ready) (hh : s.handling = .send) :
    Step interceptLinks s .ready { s with
      conn := .printRequestReady
      handling := .returned
      pipeClosed := true }
  | printed (h : s.conn = .printRequestReady) (hp : s.printer = .send) :
    Step interceptLinks s .printed
      { s with conn := .returned, printer := .returned, connClosed := true }
  | answered (ok : Bool) (h : s.reader = .read) :
    Step interceptLinks s (.answered ok) { s with reader := .send ok }
  | received (h : s.reader = .send true) (hr : s.responder = .receive) :
    Step interceptLinks s .received { s with reader := .returned, responder := .write }
  | receivedNil (h : s.reader = .send false) (hr : s.responder = .receive) :
    Step interceptLinks s .received
      { s with reader := .returned, responder := .returned, connClosed := true }
  | responded (h : s.responder = .write) :
    Step interceptLinks s .responded { s with responder := .returned, connClosed := true }

variable {interceptLinks : List InterceptLink} {s s' : State} {a : Act}

theorem step_of_step (h : step interceptLinks s a = some s') : Step interceptLinks s a s' := by
  cases a with
  | read got =>
    simp only [step] at h
    split at h
    case isTrue hread =>
      cases h
      obtain ⟨hprinter, hclosed⟩ := hread
      cases got with
      | data => exact .data hprinter (Bool.eq_false_iff.2 fun hc => nomatch hclosed hc)
      | eof => exact .eof hprinter (Bool.eq_false_iff.2 fun hc => nomatch hclosed hc)
      | fails => exact .readFails hprinter
    case isFalse => cases h
  | pull last =>
    simp only [step] at h
    split at h
    case isTrue hpull => cases h; exact .pull last hpull.1 hpull.2.2
    case isFalse => cases h
  | broken =>
    simp only [step] at h
    split at h
    case isTrue hbroken => cases h; exact .broken hbroken.1
    case isFalse => cases h
  | parsed read =>
    simp only [step] at h
    split at h
    · split at h
      · cases h; exact .parseFails ‹_› ‹_›
      · cases h; exact .parsed ‹_› ‹_›
    · cases h
  | dial fails =>
    simp only [step] at h
    split at h
    · cases fails <;> cases h
      · exact .intercept ‹_›
      · exact .interceptFails ‹_›
    · cases fails <;> cases h
      · exact .dial ‹_›
      · exact .dialFails ‹_›
    · cases h
  | forwarded =>
    simp only [step] at h
    split at h
    · cases h; exact .forwarded ‹_›
    · cases h
  | copied fails =>
    simp only [step] at h
    split at h
    · cases fails <;> cases h
      · exact .copied ‹_›
      · exact .copyFails ‹_›
    · cases h
  | wrote fails =>
    simp only [step] at h
    split at h
    · cases fails <;> cases h
      · exact .wrote ‹_›
      · exact .writeFails ‹_›
    · cases h
  | written =>
    simp only [step] at h
    split at h
    case isTrue hmeet => cases h; exact .written hmeet.1 hmeet.2
    case isFalse => cases h
  | ready =>
    simp only [step] at h
    split at h
    case isTrue hmeet => cases h; exact .ready hmeet.1 hmeet.2
    case isFalse => cases h
  | printed =>
    simp only [step] at h
    split at h
    case isTrue hmeet => cases h; exact .printed hmeet.1 hmeet.2
    case isFalse => cases h
  | answered ok =>
    simp only [step] at h
    split at h
    · cases h; exact .answered ok ‹_›
    · cases h
  | received =>
    simp only [step] at h
    split at h
    · cases h; exact .received ‹_› ‹_›
    · cases h; exact .receivedNil ‹_› ‹_›
    · cases h
  | responded =>
    simp only [step] at h
    split at h
    · cases h; exact .responded ‹_›
    · cases h

/-! ## Who waits for whom -/

/-- Nobody waits for a signal whose sender has returned, and once `handleHttpConn` has returned
nobody is at a send that is not received. A circle is not counted, as none in it has returned: where
the client's stream is cut before a request is complete, `handleHttpConn` waits for `ready`, the
goroutine that would send it waits in its read of the pipe for `printRequest`, and that waits to
send its own signal to `handleHttpConn`. -/
structure State.NoneStranded (s : State) : Prop where
  ready : s.conn = .ready → s.handling ≠ .returned
  printRequestReady : s.conn = .printRequestReady → s.printer ≠ .returned
  /-- The same of `connectClientToServerDirectly`. -/
  direct : s.handling = .await → s.writer ≠ .returned
  handlingSends : s.conn = .returned → s.handling ≠ .send
  printerSends : s.conn = .returned → s.printer ≠ .send
  writerSends : s.conn = .returned → s.writer ≠ .send
  readerSends : s.conn = .returned → ∀ ok, s.reader = .send ok → s.responder = .receive

/-- What a step has to meet. -/
def State.Meets (s : State) : Act → Prop
  | .read got => got = .fails → s.conn ≠ .printRequestReady
  | .broken => s.conn ≠ .printRequestReady
  | .parsed read => ∃ request, read = .ok request
  | .dial fails => s.handling = .dial true → fails = false
  | .copied fails => s.writer = .returned → fails = true
  | .wrote fails => (s.handling = .await → fails = false) ∧
      (s.conn = .returned → fails = true)
  | .ready => s.printer ≠ .returned
  | .printed => s.writer ≠ .send
  | .pull _ | .forwarded | .written | .answered _ | .received | .responded => True

/-- Who has been received from has returned, and there is somebody to receive a response. -/
structure State.Sound (s : State) : Prop where
  handling : s.conn ≠ .ready → s.handling = .returned
  printer : s.conn = .returned → s.printer = .returned
  closed : s.conn = .returned → s.connClosed = true
  responder : s.reader = .read ∨ (∃ ok, s.reader = .send ok) → s.responder = .receive

theorem sound_init : init.Sound := ⟨nofun, nofun, nofun, by simp [init]⟩

theorem State.Sound.handling_returned (h : s.Sound) (hconn : s.conn = .returned) :
    s.handling = .returned := h.handling fun hready => nomatch hconn.symm.trans hready

theorem State.Sound.step (h : s.Sound) (hs : Step interceptLinks s a s') : s'.Sound := by
  cases hs with
  | data hr | eof hr | readFails hr | broken hr =>
    exact { h with printer := fun hconn => nomatch hr.symm.trans (h.printer hconn) }
  | pull last hw hpulls =>
    refine { h with handling := fun hconn => ?_, printer := fun hconn => ?_ }
    · have hhandling := h.handling hconn
      exact (if_neg fun hparse => nomatch hparse.symm.trans hhandling).trans hhandling
    · exact nomatch hw.symm.trans (h.printer hconn)
  | parseFails | interceptFails => exact { h with handling := fun _ => rfl }
  | parsed hd | intercept hd | dialFails hd | dial hd | copied hd =>
    exact { h with handling := fun hconn => nomatch hd.symm.trans (h.handling hconn) }
  | copyFails hd | written hd =>
    exact { h with
      handling := fun hconn => nomatch hd.symm.trans (h.handling hconn)
      closed := fun _ => rfl }
  | forwarded hd =>
    exact { h with
      handling := fun hconn => nomatch hd.symm.trans (h.handling hconn)
      responder := fun _ => rfl }
  | writeFails | wrote => exact ⟨h.handling, h.printer, h.closed, h.responder⟩
  | ready => exact { h with handling := fun _ => rfl, printer := nofun, closed := nofun }
  | printed hp =>
    exact { h with
      handling := fun _ => h.handling fun hready => nomatch hp.symm.trans hready
      printer := fun _ => rfl
      closed := fun _ => rfl }
  | answered ok hr => exact { h with responder := fun _ => h.responder (.inl hr) }
  | received => exact { h with responder := by rintro (hr | ⟨ok, hr⟩) <;> cases hr }
  | receivedNil =>
    exact { h with
      closed := fun _ => rfl
      responder := by rintro (hr | ⟨ok, hr⟩) <;> cases hr }
  | responded hw =>
    exact { h with
      closed := fun _ => rfl
      responder := fun hr => nomatch hw.symm.trans (h.responder hr) }

theorem parse_ok_iff {read : Except GoError Request} :
    (∃ request, read = .ok request) ↔ ∃ request, parseHttpRequest read = .ok request := by
  cases read with
  | error err => exact iff_of_false nofun nofun
  | ok request => exact iff_of_true ⟨_, rfl⟩ ⟨_, rfl⟩

/-- A read of the pipe moves `printRequest` and the parser, and nobody waits for either. -/
theorem State.NoneStranded.pull (hn : s.NoneStranded) (last : Bool) : State.NoneStranded { s with
    printer := if last then .read else .write
    handling := if s.handling = .parse then .scan else s.handling } := by
  refine { hn with
    ready := ?_
    printRequestReady := ?_
    direct := ?_
    handlingSends := ?_
    printerSends := ?_ }
  · intro hconn
    dsimp only
    split
    · nofun
    · exact hn.ready hconn
  · intro _
    cases last <;> nofun
  · dsimp only
    split
    · nofun
    · exact hn.direct
  · intro hconn
    dsimp only
    split
    · nofun
    · exact hn.handlingSends hconn
  · intro _
    cases last <;> nofun

/-- **Step.** Which steps strand somebody is seen before they are taken. -/
theorem State.NoneStranded.step_iff (h : s.Sound) (hn : s.NoneStranded)
    (hs : Step interceptLinks s a s') : s'.NoneStranded ↔ s.Meets a := by
  cases hs with
  | data =>
    refine iff_of_true ?_ nofun
    exact { hn with printRequestReady := fun _ => nofun, printerSends := fun _ => nofun }
  | eof hr =>
    refine iff_of_true ?_ nofun
    exact { hn with
      printRequestReady := fun _ => nofun
      printerSends := fun hconn => nomatch hr.symm.trans (h.printer hconn) }
  | pull last => exact iff_of_true (hn.pull last) trivial
  | parsed hscan hread =>
    refine iff_of_true ?_ (parse_ok_iff.2 ⟨_, hread⟩)
    exact { hn with ready := fun _ => nofun, direct := nofun, handlingSends := fun _ => nofun }
  | intercept =>
    refine iff_of_true ?_ fun _ => rfl
    exact { hn with ready := fun _ => nofun, direct := nofun, handlingSends := fun _ => nofun }
  | dial hd =>
    refine iff_of_true ?_ fun h => nomatch hd.symm.trans h
    exact { hn with
      ready := fun _ => nofun
      direct := nofun
      handlingSends := fun _ => nofun
      writerSends := fun _ => nofun }
  -- the handling goroutine comes to its signal, which `handleHttpConn` is still to receive
  | dialFails hd =>
    refine iff_of_true ?_ fun h => nomatch hd.symm.trans h
    exact { hn with
      ready := fun _ => nofun
      direct := nofun
      handlingSends := fun hconn => nomatch hd.symm.trans (h.handling_returned hconn) }
  | copyFails hc =>
    refine iff_of_true ?_ fun _ => rfl
    exact { hn with
      ready := fun _ => nofun
      direct := nofun
      handlingSends := fun hconn => nomatch hc.symm.trans (h.handling_returned hconn) }
  | forwarded hw =>
    refine iff_of_true ?_ trivial
    exact { hn with
      ready := fun _ => nofun
      direct := nofun
      handlingSends := fun hconn => nomatch hw.symm.trans (h.handling_returned hconn)
      readerSends := fun _ _ => nofun }
  | written ha =>
    refine iff_of_true ?_ trivial
    exact { hn with
      ready := fun _ => nofun
      direct := nofun
      handlingSends := fun hconn => nomatch ha.symm.trans (h.handling_returned hconn)
      writerSends := fun _ => nofun }
  | answered ok hr =>
    exact iff_of_true { hn with readerSends := fun _ _ _ => h.responder (.inl hr) } trivial
  | received | receivedNil => exact iff_of_true { hn with readerSends := fun _ _ => nofun } trivial
  | responded hw =>
    refine iff_of_true { hn with readerSends := fun _ ok hok => ?_ } trivial
    exact nomatch hw.symm.trans (h.responder (.inr ⟨ok, hok⟩))
  -- the handling goroutine leaves, and nobody has heard of it yet
  | parseFails hscan hread =>
    have hconn : s.conn = .ready :=
      by_contra fun hconn => nomatch hscan.symm.trans (h.handling hconn)
    refine iff_of_false (fun hn' => hn'.ready hconn rfl) fun hok => ?_
    obtain ⟨request, hok⟩ := parse_ok_iff.1 hok
    cases hread.symm.trans hok
  | interceptFails hd =>
    have hconn : s.conn = .ready := by_contra fun hconn => nomatch hd.symm.trans (h.handling hconn)
    exact iff_of_false (fun hn' => hn'.ready hconn rfl) fun hok => nomatch hok hd
  -- `printRequest` leaves without a signal
  | readFails =>
    refine ⟨fun hn' _ hconn => hn'.printRequestReady hconn rfl, fun hmeets => ?_⟩
    exact { hn with
      printRequestReady := fun hconn => absurd hconn (hmeets rfl)
      printerSends := fun _ => nofun }
  | broken =>
    refine ⟨fun hn' hconn => hn'.printRequestReady hconn rfl, fun hmeets => ?_⟩
    exact { hn with
      printRequestReady := fun hconn => absurd hconn hmeets
      printerSends := fun _ => nofun }
  -- the two ends of a direct connection
  | copied =>
    refine ⟨fun hn' hw => absurd hw (hn'.direct rfl), fun hmeets => ?_⟩
    exact { hn with
      ready := fun _ => nofun
      direct := fun _ hw => nomatch hmeets hw
      handlingSends := fun _ => nofun }
  | writeFails =>
    refine ⟨fun hn' => ⟨fun ha => absurd rfl (hn'.direct ha), fun _ => rfl⟩,
      fun hmeets => ?_⟩
    exact { hn with
      direct := fun ha => nomatch hmeets.1 ha
      writerSends := fun _ => nofun }
  | wrote =>
    refine ⟨fun hn' => ⟨fun _ => rfl, fun hconn => absurd rfl (hn'.writerSends hconn)⟩,
      fun hmeets => ?_⟩
    exact { hn with
      direct := fun _ => nofun
      writerSends := fun hconn => nomatch hmeets.2 hconn }
  -- `handleHttpConn` goes on
  | ready =>
    exact ⟨fun hn' => hn'.printRequestReady rfl,
      fun hp => ⟨nofun, fun _ => hp, nofun, nofun, nofun, nofun, nofun⟩⟩
  | printed hc =>
    have hhandling : s.handling = .returned := h.handling fun hready => nomatch hc.symm.trans hready
    refine ⟨fun hn' => hn'.writerSends rfl, fun hw => ?_⟩
    exact { hn with
      ready := nofun
      printRequestReady := nofun
      handlingSends := fun _ hsend => nomatch hhandling.symm.trans hsend
      printerSends := fun _ => nofun
      writerSends := fun _ => hw
      readerSends := fun _ ok hok => h.responder (.inr ⟨ok, hok⟩) }

theorem noneStranded_init : init.NoneStranded :=
  ⟨fun _ => nofun, fun _ => nofun, fun _ => nofun, nofun, nofun, nofun, nofun⟩

/-- Where nobody is stranded, `handleHttpConn` is the last to go. -/
theorem State.NoneStranded.returned (h : s.Sound) (hn : s.NoneStranded)
    (hhandling : s.handling = .returned) (hprinter : s.printer = .returned) :
    s.conn = .returned ∧ s.connClosed = true := by
  have hconn : s.conn = .returned := by
    cases hconn : s.conn with
    | ready => exact absurd hhandling (hn.ready hconn)
    | printRequestReady => exact absurd hprinter (hn.printRequestReady hconn)
    | returned => rfl
  exact ⟨hconn, h.closed hconn⟩

theorem State.keeps (hI : s.Sound ∧ s.NoneStranded) (ha : s.Meets a)
    (hs : (system interceptLinks).step s a = some s') : s'.Sound ∧ s'.NoneStranded :=
  ⟨hI.1.step (step_of_step hs), (hI.2.step_iff hI.1 (step_of_step hs)).2 ha⟩

/-- **Signals.** In every run, nobody is stranded as long as the steps meet the condition, and no
longer; and `handleHttpConn` has then returned and closed the connection once the goroutines have
ended that it waits for. -/
theorem noneStranded_iff_meets (interceptLinks : List InterceptLink) (as : List Act) (t : State)
    (hr : (system interceptLinks).run init as = some t) :
    ((system interceptLinks).States State.NoneStranded init as ↔
      (system interceptLinks).Steps State.Meets init as) ∧
    ((system interceptLinks).Steps State.Meets init as → t.handling = .returned →
      t.printer = .returned →
      t.conn = .returned ∧ t.connClosed = true) := by
  have hinit : init.Sound ∧ init.NoneStranded := ⟨sound_init, noneStranded_init⟩
  constructor
  · exact System.states_iff_steps (fun _ _ _ hI ha hs => State.keeps hI ha hs)
      (fun _ _ _ hI hs => hI.2.step_iff hI.1 (step_of_step hs)) hinit hr
  · intro hsteps
    obtain ⟨hsound, hn⟩ :=
      System.run_invariant (fun _ _ _ hI ha hs => State.keeps hI ha hs) hinit hsteps hr
    exact hn.returned hsound

/-- The client sends its request, ends its stream and is connected to the target. -/
def halfClosed : List Act :=
  [.read .data, .pull true, .read .eof, .parsed (.ok getObject), .dial false,
    .wrote false, .copied false,
    .written, .ready, .printed]

/-- It goes as it should. -/
theorem noneStranded_iff_meets_halfClosed :
    let t : State := ⟨.returned, .returned, .returned, .returned, .absent, .absent, true, true⟩
    ((system []).States State.NoneStranded init halfClosed ↔
      (system []).Steps State.Meets init halfClosed) ∧
    ((system []).Steps State.Meets init halfClosed → t.handling = .returned →
      t.printer = .returned →
      t.conn = .returned ∧ t.connClosed = true) :=
  noneStranded_iff_meets [] halfClosed _ rfl

/-- `http.ReadRequest` of a line that is none. -/
def errMalformed : GoError := .new "malformed HTTP request \"x\""

/-- A request that cannot be parsed: `handleHttpConn` waits on `ready`, and the handling goroutine
is gone. -/
theorem malformed_strands :
    ¬ ∀ (interceptLinks : List InterceptLink) (as : List Act) (t : State),
    (system interceptLinks).run init as = some t →
      (system interceptLinks).States State.NoneStranded init as := by
  intro h
  have hstates := h [] [.read .data, .pull true, .parsed (.error errMalformed)] _ rfl
  have hn := ((hstates _ rfl).2 _ rfl).2 _ rfl
  exact hn.1.ready rfl rfl

end HttpPrintingProxy

end Proxy

end AutomaticCache
