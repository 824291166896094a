import AutomaticCache.ObjectStorage.Intercept

/-!
# What a cache key tells apart

`ExtractObjectKey` puts a question mark between the decoded path and the query. A question mark of
the path is sent as an escape, but the decoded path has it as it is, so that the key does not say
where the path ends (`extractObjectKey_injective_iff`).
-/

namespace AutomaticCache

open Bytes

/-- As `http.ReadRequest` leaves it: the host of an absolute URL replaces the Host header. -/
structure Request.Parsed (req : Request) : Prop where
  url : req.url.Parsed
  host : req.url.host ≠ [] → req.host = req.url.host
  slash : byte '/' ∉ req.url.host

/-- The path of `u'` goes on with a question mark and what the query of `u` begins with. -/
def RunsInto (u u' : URL) : Prop :=
  ∃ t, u'.path = u.path ++ byte '?' :: t ∧ u.rawQuery = t ++ byte '?' :: u'.rawQuery

namespace MinioObjectStorageAdapter

/-- Both name the host or neither does, and one path runs into the query of the other. -/
def Confused (req req' : Request) : Prop :=
  req.url.host = req'.url.host ∧ (RunsInto req.url req'.url ∨ RunsInto req'.url req.url)

theorem extractObjectKey_eq (req : Request) :
    extractObjectKey req = req.url.host ++ (req.url.path ++ byte '?' :: req.url.rawQuery) := by
  unfold extractObjectKey
  simp only [List.append_assoc]
  rfl

/-- A path and a query that are not told apart from others run into each other. -/
theorem path_query_eq_iff (u u' : URL) :
    u.path ++ byte '?' :: u.rawQuery = u'.path ++ byte '?' :: u'.rawQuery ↔
      (u.path = u'.path ∧ u.rawQuery = u'.rawQuery) ∨ RunsInto u u' ∨ RunsInto u' u := by
  constructor
  · intro h
    rcases List.append_eq_append_iff.1 h with ⟨s, hpath, hquery⟩ | ⟨s, hpath, hquery⟩
    · cases s with
      | nil =>
        rw [List.append_nil] at hpath
        exact Or.inl ⟨hpath.symm, (List.cons.inj hquery).2⟩
      | cons c t =>
        obtain ⟨rfl, ht⟩ := List.cons.inj hquery
        exact Or.inr (Or.inl ⟨t, hpath, ht⟩)
    · cases s with
      | nil =>
        rw [List.append_nil] at hpath
        exact Or.inl ⟨hpath, (List.cons.inj hquery).2.symm⟩
      | cons c t =>
        obtain ⟨rfl, ht⟩ := List.cons.inj hquery
        exact Or.inr (Or.inr ⟨t, hpath, ht⟩)
  · rintro (⟨hpath, hquery⟩ | ⟨t, hpath, hquery⟩ | ⟨t, hpath, hquery⟩)
    · rw [hpath, hquery]
    · rw [hpath, hquery]
      simp
    · rw [hpath, hquery]
      simp

variable {mosa mosa' : MinioObjectStorageAdapter} {req req' : Request}

/-- A request whose URL does not name the host has no key of one whose URL does. -/
theorem key_ne_of_host {p : Bytes} (hpath : req.url.path = byte '/' :: p)
    (hhost : req.url.host = []) (hparsed' : req'.Parsed) (hhost' : req'.url.host ≠ []) :
    extractObjectKey req ≠ extractObjectKey req' := by
  intro hkey
  rw [extractObjectKey_eq, extractObjectKey_eq, hhost, hpath] at hkey
  cases hc : req'.url.host with
  | nil => exact hhost' hc
  | cons c host =>
    rw [hc] at hkey
    have hslash := hparsed'.slash
    rw [hc, ← (List.cons.inj hkey).1] at hslash
    exact hslash List.mem_cons_self

/-- Of two intercepted requests with one key and one Host header, both URLs name the host or neither
does. -/
theorem host_eq_of_key_eq (hparsed : req.Parsed) (hparsed' : req'.Parsed)
    (hi : mosa.shouldIntercept req = true) (hi' : mosa'.shouldIntercept req' = true)
    (hhost : req.host = req'.host) (hkey : extractObjectKey req = extractObjectKey req') :
    req.url.host = req'.url.host := by
  obtain ⟨object, h⟩ := inBucket_of_intercepts hparsed.url (shouldIntercept_iff.1 hi)
  obtain ⟨object', h'⟩ := inBucket_of_intercepts hparsed'.url (shouldIntercept_iff.1 hi')
  obtain ⟨bucket, hpath, -⟩ := h.path
  obtain ⟨bucket', hpath', -⟩ := h'.path
  by_cases hnil : req.url.host = []
  · by_cases hnil' : req'.url.host = []
    · rw [hnil, hnil']
    · exact absurd hkey (key_ne_of_host hpath hnil hparsed' hnil')
  · by_cases hnil' : req'.url.host = []
    · exact absurd hkey.symm (key_ne_of_host hpath' hnil' hparsed hnil)
    · rw [← hparsed.host hnil, ← hparsed'.host hnil', hhost]

/-- **Keys.** Two intercepted requests to one host are told apart by their keys exactly if neither
path runs into the query of the other. -/
theorem extractObjectKey_injective_iff (mosa mosa' : MinioObjectStorageAdapter) (req req' : Request)
    (hparsed : req.Parsed) (hparsed' : req'.Parsed) (hi : mosa.shouldIntercept req = true)
    (hi' : mosa'.shouldIntercept req' = true) (hhost : req.host = req'.host) :
    (extractObjectKey req = extractObjectKey req' →
      req.url.path = req'.url.path ∧ req.url.rawQuery = req'.url.rawQuery) ↔
        ¬Confused req req' := by
  constructor
  · rintro hinj ⟨hsame, hruns⟩
    have hkey : extractObjectKey req = extractObjectKey req' := by
      rw [extractObjectKey_eq, extractObjectKey_eq, hsame, (path_query_eq_iff _ _).2 (Or.inr hruns)]
    have hpath := (hinj hkey).1
    rcases hruns with ⟨t, ht, -⟩ | ⟨t, ht, -⟩
    · rw [hpath, List.self_eq_append_right] at ht
      cases ht
    · rw [hpath, List.self_eq_append_right] at ht
      cases ht
  · intro hconfused hkey
    have hsame := host_eq_of_key_eq hparsed hparsed' hi hi' hhost hkey
    rw [extractObjectKey_eq, extractObjectKey_eq, hsame] at hkey
    rcases (path_query_eq_iff _ _).1 (List.append_cancel_left hkey) with hsame' | hruns
    · exact hsame'
    · exact absurd ⟨hsame, hruns⟩ hconfused

/-- A `GET` with this path, after its slash, and query. -/
def getPath (path rawQuery : Bytes) : Request where
  method := methodGet
  url := ⟨[], [], none, [], byte '/' :: path, [], false, false, rawQuery⟩
  host := ascii "host.lima.internal:9000"
  header := ∅
  body := []

theorem parsed_getPath (path rawQuery : Bytes) : (getPath path rawQuery).Parsed where
  url :=
    { scheme := List.not_mem_nil
      relative := fun _ => ⟨rfl, rfl, rfl⟩
      opaqueData := fun h => absurd rfl h
      path := Or.inr (Or.inr ⟨path, rfl⟩)
      rawPath := Or.inl rfl
      omitHost := nofun }
  host := fun h => absurd rfl h
  slash := List.not_mem_nil

/-- `GET /b/o?x` and `GET /b/o?y`. -/
theorem extractObjectKey_injective_iff_query :
    ¬Confused (getPath (ascii "b/o") (ascii "x")) (getPath (ascii "b/o") (ascii "y")) :=
  (extractObjectKey_injective_iff ⟨ascii "host.lima.internal:9000"⟩
    ⟨ascii "host.lima.internal:9000"⟩
    (getPath (ascii "b/o") (ascii "x")) (getPath (ascii "b/o") (ascii "y")) (parsed_getPath _ _)
    (parsed_getPath _ _) (by decide) (by decide) rfl).1 fun h => absurd h (by decide)

/-- `GET /b/o%3Fx?y` and `GET /b/o?x?y`. -/
theorem extractObjectKey_not_injective :
    (getPath (ascii "b/o?x") (ascii "y")).Parsed ∧
    (getPath (ascii "b/o") (ascii "x?y")).Parsed ∧
      (⟨ascii "host.lima.internal:9000"⟩ : MinioObjectStorageAdapter).shouldIntercept
        (getPath (ascii "b/o?x") (ascii "y")) = true ∧
      (⟨ascii "host.lima.internal:9000"⟩ : MinioObjectStorageAdapter).shouldIntercept
        (getPath (ascii "b/o") (ascii "x?y")) = true ∧
      extractObjectKey (getPath (ascii "b/o?x") (ascii "y")) =
        extractObjectKey (getPath (ascii "b/o") (ascii "x?y")) ∧
      (getPath (ascii "b/o?x") (ascii "y")).url.path ≠
        (getPath (ascii "b/o") (ascii "x?y")).url.path :=
  ⟨parsed_getPath _ _, parsed_getPath _ _, by decide, by decide, by decide, by decide⟩

end MinioObjectStorageAdapter

end AutomaticCache
