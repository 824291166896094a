import AutomaticCache.Cache.Clients
import AutomaticCache.Http.Message

/-!
# Object storage adapters

`ObjectStorage` is what the proxy asks of an adapter: which requests to answer from the cache, under
which key, and with what response. `MinioObjectStorageAdapter` is the one that `run` installs.
-/

namespace AutomaticCache

open Bytes

/-- The interface `ObjectStorage`. -/
structure ObjectStorage where
  shouldIntercept : Request → Bool
  extractObjectKey : Request → Bytes
  createLocalResponse : Object → Except Panic (Except GoError Response)

def validateBucketName (bucket : Bytes) : Bool :=
  bucket ≠ [] && bucket ≠ ascii ".." && bucket ≠ ascii "."

def minIoisObjectKey (key : Bytes) : Bool := key ≠ []

def getObjectPathFromURL (url : Bytes) : Bytes :=
  let parts := url.splitOn (byte '/')
  if parts.length < 3 then [] else (ascii "/").intercalate (parts.drop 2)

/-- Requests whose Host header contains `host` are for the store. -/
structure MinioObjectStorageAdapter where
  host : Bytes

namespace MinioObjectStorageAdapter

def extractObjectKey (req : Request) : Bytes :=
  req.url.host ++ req.url.path ++ ascii "?" ++ req.url.rawQuery

/-- `object.Data` is dereferenced twice, without a check. -/
def createLocalResponse (object : Object) : Except Panic (Except GoError Response) :=
  match object.data with
  | none => .error .nilDereference
  | some data => .ok (.ok
      { status := []
        statusCode := statusOK
        proto := ascii "HTTP/1.1"
        protoMajor := 1
        protoMinor := 1
        contentLength := data.length
        header := object.originalHeaders
        body := ⟨data, none⟩ })

def shouldIntercept (mosa : MinioObjectStorageAdapter) (req : Request) : Bool :=
  if contains req.url.rawQuery (ascii "location") then false
  else if req.method ≠ methodGet then false
  else
    let path := req.url.path.splitOn (byte '/')
    let hostOk := contains req.host mosa.host
    let requestOk := req.method = methodGet && 3 ≤ path.length &&
      validateBucketName (path.getD 1 []) && minIoisObjectKey (getObjectPathFromURL req.url.string)
    hostOk && requestOk

/-- The adapter as the proxy sees it. -/
def toObjectStorage (mosa : MinioObjectStorageAdapter) : ObjectStorage where
  shouldIntercept := mosa.shouldIntercept
  extractObjectKey := extractObjectKey
  createLocalResponse := createLocalResponse

variable {mosa : MinioObjectStorageAdapter} {req : Request}

/-- What an intercepted request is like. -/
structure Intercepts (mosa : MinioObjectStorageAdapter) (req : Request) : Prop where
  location : contains req.url.rawQuery (ascii "location") = false
  method : req.method = methodGet
  host : contains req.host mosa.host = true
  segments : 3 ≤ (req.url.path.splitOn (byte '/')).length
  bucket : validateBucketName ((req.url.path.splitOn (byte '/')).getD 1 []) = true
  object : minIoisObjectKey (getObjectPathFromURL req.url.string) = true

theorem shouldIntercept_iff : mosa.shouldIntercept req = true ↔ mosa.Intercepts req := by
  unfold shouldIntercept
  split_ifs with hl hm
  · exact ⟨False.elim, fun h => by rw [h.location] at hl; cases hl⟩
  · exact ⟨False.elim, fun h => absurd h.method hm⟩
  · simp only [Bool.and_eq_true, decide_eq_true_eq]
    constructor
    · rintro ⟨hhost, ⟨⟨hmethod, hseg⟩, hbucket⟩, hobject⟩
      exact ⟨Bool.eq_false_iff.2 hl, hmethod, hhost, hseg, hbucket, hobject⟩
    · intro h
      exact ⟨h.host, ⟨⟨h.method, h.segments⟩, h.bucket⟩, h.object⟩

/-- The key of an intercepted request has at least the slashes of its path, so that
`MemcachedClient` takes it. -/
theorem validKey_of_intercepts (h : mosa.Intercepts req) :
    MemcachedClient.invalidKey (extractObjectKey req) = false := by
  have hpath : 2 ≤ req.url.path.count (byte '/') := by
    have := h.segments
    rw [length_splitOn] at this
    omega
  have hkey : 3 ≤ ((extractObjectKey req).splitOn (byte '/')).length := by
    rw [length_splitOn]
    unfold extractObjectKey
    simp only [List.count_append]
    omega
  unfold MemcachedClient.invalidKey
  rw [Bool.or_eq_false_iff, decide_eq_false_iff_not, decide_eq_false_iff_not, Nat.not_lt]
  refine ⟨fun hnil => ?_, hkey⟩
  rw [hnil, List.splitOn_nil] at hkey
  exact absurd hkey (by decide)

end MinioObjectStorageAdapter

end AutomaticCache
