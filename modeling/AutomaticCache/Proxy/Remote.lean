import AutomaticCache.ObjectStorage.Adapters

/-!
# What the proxy makes of an origin's response

The texts of `retrieveObjectFromRemote`'s errors and the object it builds (`receive`).
-/

namespace AutomaticCache

open Bytes

def connectError (err : GoError) : GoError :=
  .leaf (ascii "failed to connect to target: " ++ err.text)

def sendRequestError (err : GoError) : GoError :=
  .leaf (ascii "failed to send request to target: " ++ err.text)

def readResponseError (err : GoError) : GoError :=
  .leaf (ascii "failed to read response from target: " ++ err.text)

/-- The error `retrieveObjectFromRemote` returns for what came over `errChan`. -/
def retrieveError (err : GoError) : GoError :=
  .leaf (ascii "failed to retrieve object from remote: " ++ err.text)

/-- From the response on: the object that goes over `objChan`, or the error that goes over
`errChan`. -/
def receive (objectKey : Bytes) (res : Response) : Except GoError Object :=
  if res.statusCode ≠ statusOK then
    match res.body.err with
    | some _ => .error (.new "could not read non-OK response body")
    | none => .error (.leaf (ascii "received non-OK HTTP status: " ++ res.status ++ ascii " : " ++
        res.body.data))
  else
    match res.body.err with
    | some err => .error err
    | none => .ok { key := objectKey, originalHeaders := res.header, data := some res.body.data }

/-- The response has status 200 and its body was read to the end. -/
def Response.Complete (res : Response) : Prop := res.statusCode = statusOK ∧ res.body.err = none

/-- Only a complete response becomes an object, with its headers and its whole body. -/
theorem receive_eq_ok {objectKey : Bytes} {res : Response} {o : Object} :
    receive objectKey res = .ok o ↔ res.Complete ∧
    o = ⟨objectKey, some res.body.data, res.header⟩ := by
  unfold receive Response.Complete
  by_cases hs : res.statusCode = statusOK
  · rw [if_neg (not_not.2 hs)]
    cases he : res.body.err with
    | none => simp only [Except.ok.injEq, hs, true_and, eq_comm]
    | some err => simp
  · rw [if_pos hs]
    cases he : res.body.err <;> simp [hs]

/-! ## A request and its response -/

/-- `GET /bucket/object` for the host the proxy is run with. -/
def getObject : Request where
  method := methodGet
  url := ⟨[], [], none, [], ascii "/bucket/object", [], false, false, []⟩
  host := ascii "host.lima.internal:9000"
  header := ∅
  body := []

/-- A complete response with this body. -/
def okResponse (body : Bytes) : Response where
  status := ascii "200 OK"
  statusCode := statusOK
  proto := ascii "HTTP/1.1"
  protoMajor := 1
  protoMinor := 1
  contentLength := body.length
  header := some ∅
  body := ⟨body, none⟩

end AutomaticCache
