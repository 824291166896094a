import AutomaticCache.Lib.Url
import Mathlib.Data.Finmap

/-!
# Requests and responses

The parts of `http.Request` and `http.Response` that the proxy reads or writes. A body reader is
what it will yield and how it ends.
-/

namespace AutomaticCache

/-- `http.Header`, where it is not nil. -/
abbrev Header := Finmap fun _ : Bytes => List Bytes

/-- A request as `http.ReadRequest` parses it: `host` is the Host header, unless the request line
has an absolute URL with a host, and `url.host` is empty unless it has. `body` is what a client
sends of a body that is either `chunked` or as long as `Content-Length` says. -/
structure Request where
  method : Bytes
  url : URL
  host : Bytes
  header : Header
  body : Bytes
  /-- `TransferEncoding` is `chunked`. -/
  chunked : Bool := false
  close : Bool := false
  deriving DecidableEq

/-- `Body` is `http.NoBody`. -/
def Request.NoBody (req : Request) : Prop := req.body = [] ∧ req.chunked = false

instance : DecidablePred Request.NoBody := fun _ => inferInstanceAs (Decidable (_ ∧ _))

def methodGet : Bytes := Bytes.ascii "GET"

/-- The reader yields `data`, then `io.EOF` or the error `err`. -/
structure BodyReader where
  data : Bytes
  err : Option GoError
  deriving DecidableEq

structure Response where
  status : Bytes
  statusCode : ℕ
  proto : Bytes
  protoMajor : ℕ
  protoMinor : ℕ
  contentLength : ℤ
  header : Option Header
  body : BodyReader
  deriving DecidableEq

def statusOK : ℕ := 200

/-- A TCP address. -/
structure Addr where
  ip : BitVec 32
  port : BitVec 16
  deriving DecidableEq, Repr

end AutomaticCache
