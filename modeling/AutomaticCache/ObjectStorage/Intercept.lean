import AutomaticCache.ObjectStorage.Adapters

/-!
# Which requests are object reads

`ShouldIntercept` looks for the bucket in the decoded path and for the object behind the second
slash of the whole URL as text. What it finds there may be the query, or the host of an absolute
URL, and what is an object of the decoded path may not be there, where the bucket ends in an escaped
slash (`intercepts_iff_readsObject`).
-/

namespace AutomaticCache

open Bytes URL

/-- Something comes after the second slash. -/
def PastSecondSlash (s : Bytes) : Prop :=
  ∃ a b rest, s = a ++ byte '/' :: (b ++ byte '/' :: rest) ∧ byte '/' ∉ a ∧
    byte '/' ∉ b ∧ rest ≠ []

theorem splitOn_two {a b : Bytes} (ha : byte '/' ∉ a) (hb : byte '/' ∉ b) (rest : Bytes) :
    (a ++ byte '/' :: (b ++ byte '/' :: rest)).splitOn (byte '/') =
      a :: b :: rest.splitOn (byte '/') := by
  rw [List.splitOn_append_cons_self_of_not_mem ha, List.splitOn_append_cons_self_of_not_mem hb]

theorem getObjectPathFromURL_eq {a b : Bytes} (ha : byte '/' ∉ a) (hb : byte '/' ∉ b)
    (rest : Bytes) :
    getObjectPathFromURL (a ++ byte '/' :: (b ++ byte '/' :: rest)) = rest := by
  have hlen : ¬(a :: b :: rest.splitOn (byte '/')).length < 3 := by
    have := List.length_pos_of_ne_nil (List.splitOn_ne_nil (byte '/') rest)
    simp only [List.length_cons]
    omega
  unfold getObjectPathFromURL
  rw [splitOn_two ha hb]
  dsimp only
  rw [if_neg hlen]
  exact List.intercalate_splitOn (byte '/')

/-- A string with three parts or more has two slashes. -/
theorem exists_of_three_le {s : Bytes} (h : 3 ≤ (s.splitOn (byte '/')).length) :
    ∃ a b rest, s = a ++ byte '/' :: (b ++ byte '/' :: rest) ∧ byte '/' ∉ a ∧
      byte '/' ∉ b := by
  by_cases hs : byte '/' ∈ s
  · obtain ⟨a, t, rfl, ha⟩ := List.eq_append_cons_of_mem hs
    by_cases ht : byte '/' ∈ t
    · obtain ⟨b, rest, rfl, hb⟩ := List.eq_append_cons_of_mem ht
      exact ⟨a, b, rest, rfl, ha, hb⟩
    · rw [List.splitOn_append_cons_self_of_not_mem ha, List.splitOn_eq_singleton ht] at h
      exact absurd h (by simp)
  · rw [List.splitOn_eq_singleton hs] at h
    exact absurd h (by simp)

theorem minIoisObjectKey_iff (s : Bytes) :
    minIoisObjectKey (getObjectPathFromURL s) = true ↔ PastSecondSlash s := by
  unfold minIoisObjectKey
  rw [decide_eq_true_iff]
  constructor
  · intro h
    have hlen : 3 ≤ (s.splitOn (byte '/')).length := by
      by_contra hlt
      exact h (if_pos (Nat.lt_of_not_le hlt))
    obtain ⟨a, b, rest, rfl, ha, hb⟩ := exists_of_three_le hlen
    rw [getObjectPathFromURL_eq ha hb] at h
    exact ⟨a, b, rest, rfl, ha, hb, h⟩
  · rintro ⟨a, b, rest, rfl, ha, hb, hrest⟩
    rwa [getObjectPathFromURL_eq ha hb]

/-- What comes before the first slash does not matter. -/
theorem pastSecondSlash_append {start : Bytes} (hstart : byte '/' ∉ start) (t : Bytes) :
    PastSecondSlash (start ++ byte '/' :: t) ↔
      ∃ b rest, t = b ++ byte '/' :: rest ∧ byte '/' ∉ b ∧ rest ≠ [] := by
  constructor
  · rintro ⟨a, b, rest, heq, ha, hb, hrest⟩
    exact ⟨b, rest, ((append_cons_inj hstart ha).1 heq).2, hb, hrest⟩
  · rintro ⟨b, rest, rfl, hb, hrest⟩
    exact ⟨start, b, rest, rfl, hstart, hb, hrest⟩

theorem pastSecondSlash_two {a b : Bytes} (ha : byte '/' ∉ a) (hb : byte '/' ∉ b)
    (rest : Bytes) :
    PastSecondSlash (a ++ byte '/' :: (b ++ byte '/' :: rest)) ↔ rest ≠ [] := by
  rw [← minIoisObjectKey_iff, getObjectPathFromURL_eq ha hb]
  exact decide_eq_true_iff

/-- The first segment of the path has a slash that is sent as an escape. -/
def EscapesSlash (u : URL) : Prop :=
  ∃ s, unescape ((u.escapedPath.splitOn (byte '/')).getD 1 []) = some s ∧ byte '/' ∈ s

section target

variable {u : URL} {bucket object : Bytes} (h : u.Parsed)
  (hp : u.path = byte '/' :: (bucket ++ byte '/' :: object)) (hbucket : byte '/' ∉ bucket)

include h hp

theorem pastSecondSlash_of_absolute (ha : u.Absolute) : PastSecondSlash u.string := by
  obtain ⟨rest, hrest, hstring⟩ := string_of_absolute h hp ha
  have hscheme : byte '/' ∉ u.scheme ++ ascii ":" := fun hmem =>
    (List.mem_append.1 hmem).elim h.scheme (by decide)
  rw [hstring]
  exact (pastSecondSlash_two hscheme (b := []) List.not_mem_nil rest).2 hrest

theorem pastSecondSlash_string (ha : ¬u.Absolute) :
    PastSecondSlash u.string ↔ PastSecondSlash (u.escapedPath ++ u.query) := by
  obtain ⟨start, hstart, hstring⟩ := string_of_not_absolute h hp ha
  obtain ⟨e, he, -⟩ := escapedPath_cons h hp
  rw [hstring, he, List.append_assoc]
  exact (pastSecondSlash_append hstart _).trans (pastSecondSlash_append List.not_mem_nil _).symm

include hbucket in
/-- Where the bucket ends at a slash that is sent as it is, the object and the query come after the
second slash. -/
theorem pastSecondSlash_of_not_escapesSlash (ha : ¬u.Absolute) (hesc : ¬EscapesSlash u) :
    PastSecondSlash u.string ↔ object ≠ [] ∨ u.query ≠ [] := by
  rw [pastSecondSlash_string h hp ha]
  obtain ⟨e, he, hdecoded⟩ := escapedPath_cons h hp
  unfold EscapesSlash at hesc
  rw [he] at hesc ⊢
  by_cases hslash : byte '/' ∈ e
  · obtain ⟨b, o, rfl, hb⟩ := List.eq_append_cons_of_mem hslash
    obtain ⟨b', o', hb', ho', heq⟩ := unescape_append_cons (by decide) (by decide) o hdecoded
    have hseg : ((byte '/' :: (b ++ byte '/' :: o)).splitOn (byte '/')).getD 1 [] = b := by
      rw [← List.nil_append (byte '/' :: _), splitOn_two List.not_mem_nil hb]
      rfl
    rw [hseg] at hesc
    have hplain : byte '/' ∉ b' := fun hmem => hesc ⟨b', hb', hmem⟩
    obtain ⟨rfl, rfl⟩ := (append_cons_inj hbucket hplain).1 heq
    have hpast := pastSecondSlash_two (a := []) List.not_mem_nil hb (o ++ u.query)
    rw [List.nil_append] at hpast
    have hobject : o ≠ [] ↔ object ≠ [] := by
      refine not_congr ⟨fun hnil => ?_, fun hnil => unescape_eq_nil (hnil ▸ ho')⟩
      rw [hnil] at ho'
      exact (Option.some.inj ho').symm
    rw [List.cons_append, List.append_assoc, List.cons_append, hpast, ← hobject, ne_eq,
      List.append_eq_nil_iff, not_and_or]
  · have hseg : ((byte '/' :: e).splitOn (byte '/')).getD 1 [] = e := by
      rw [← List.nil_append (byte '/' :: _),
        List.splitOn_append_cons_self_of_not_mem List.not_mem_nil,
        List.splitOn_eq_singleton hslash]
      rfl
    rw [hseg] at hesc
    exact absurd ⟨_, hdecoded, List.mem_append_right _ List.mem_cons_self⟩ hesc

end target

namespace MinioObjectStorageAdapter

/-- A `GET` for an object of the store. -/
structure ReadsObject (mosa : MinioObjectStorageAdapter) (req : Request) : Prop where
  method : req.method = methodGet
  host : contains req.host mosa.host = true
  location : contains req.url.rawQuery (ascii "location") = false
  path : ∃ bucket object, req.url.path = byte '/' :: (bucket ++ byte '/' :: object) ∧
    byte '/' ∉ bucket ∧ bucket ≠ [] ∧ bucket ≠ ascii "." ∧
    bucket ≠ ascii ".." ∧ object ≠ []

/-- A `GET` for what comes after a bucket and a slash, which may be nothing. -/
structure InBucket (mosa : MinioObjectStorageAdapter) (req : Request) (object : Bytes) : Prop where
  method : req.method = methodGet
  host : contains req.host mosa.host = true
  location : contains req.url.rawQuery (ascii "location") = false
  path : ∃ bucket, req.url.path = byte '/' :: (bucket ++ byte '/' :: object) ∧
    byte '/' ∉ bucket ∧ bucket ≠ [] ∧ bucket ≠ ascii "." ∧ bucket ≠ ascii ".."

/-- Where what comes after the second slash of the URL's text is not what comes after the second
slash of the decoded path. -/
inductive Misread (mosa : MinioObjectStorageAdapter) (req : Request) : Prop
  /-- The whole bucket, by an absolute URL. -/
  | absolute (h : mosa.InBucket req []) (ha : req.url.Absolute)
  /-- The whole bucket, with a query. -/
  | query (h : mosa.InBucket req []) (ha : ¬req.url.Absolute) (he : ¬EscapesSlash req.url)
    (hq : req.url.forceQuery = true ∨ req.url.rawQuery ≠ [])
  /-- The whole bucket, whose slash is sent as an escape, with a slash in the query. -/
  | bucket (h : mosa.InBucket req []) (ha : ¬req.url.Absolute) (he : EscapesSlash req.url)
    (hs : PastSecondSlash (req.url.escapedPath ++ req.url.query))
  /-- An object whose bucket's slash is sent as an escape. -/
  | object (object : Bytes) (h : mosa.InBucket req object) (ho : object ≠ [])
    (ha : ¬req.url.Absolute) (he : EscapesSlash req.url)
    (hs : ¬PastSecondSlash (req.url.escapedPath ++ req.url.query))

variable {mosa : MinioObjectStorageAdapter} {req : Request} {object : Bytes}

theorem validateBucketName_iff (bucket : Bytes) : validateBucketName bucket = true ↔
    bucket ≠ [] ∧ bucket ≠ ascii "." ∧ bucket ≠ ascii ".." := by
  unfold validateBucketName
  simp only [Bool.and_eq_true, decide_eq_true_iff]
  tauto

theorem readsObject_iff (h : mosa.InBucket req object) :
    mosa.ReadsObject req ↔ object ≠ [] := by
  obtain ⟨bucket, hp, hslash, hvalid⟩ := h.path
  constructor
  · intro hr
    obtain ⟨bucket', object', hp', hslash', -, -, -, hobject⟩ := hr.path
    obtain ⟨-, rfl⟩ := (append_cons_inj hslash hslash').1 (List.cons.inj (hp.symm.trans hp')).2
    exact hobject
  · intro hobject
    exact ⟨h.method, h.host, h.location, bucket, object, hp, hslash, hvalid.1,
      hvalid.2.1, hvalid.2.2,
      hobject⟩

theorem inBucket_of_readsObject (h : mosa.ReadsObject req) :
    ∃ object, mosa.InBucket req object := by
  obtain ⟨bucket, object, hp, hslash, hne, hdot, hdots, -⟩ := h.path
  exact ⟨object, h.method, h.host, h.location, bucket, hp, hslash, hne, hdot, hdots⟩

theorem intercepts_iff (h : mosa.InBucket req object) :
    mosa.Intercepts req ↔ PastSecondSlash req.url.string := by
  rw [← minIoisObjectKey_iff]
  obtain ⟨bucket, hp, hslash, hvalid⟩ := h.path
  have hsplit : req.url.path.splitOn (byte '/') = [] :: bucket :: object.splitOn (byte '/') := by
    rw [hp, ← List.nil_append (byte '/' :: _), splitOn_two List.not_mem_nil hslash]
  refine ⟨Intercepts.object, fun hobject => ⟨h.location, h.method, h.host, ?_, ?_, hobject⟩⟩
  · have := List.length_pos_of_ne_nil (List.splitOn_ne_nil (byte '/') object)
    rw [hsplit]
    simp only [List.length_cons]
    omega
  · rw [hsplit]
    exact (validateBucketName_iff bucket).2 hvalid

theorem inBucket_of_intercepts (hparsed : req.url.Parsed) (h : mosa.Intercepts req) :
    ∃ object, mosa.InBucket req object := by
  obtain ⟨a, bucket, object, hp, ha, hslash⟩ := exists_of_three_le h.segments
  -- a parsed path with a slash begins with one
  have hnil : a = [] := by
    rcases hparsed.path with hpath | hpath | ⟨p, hpath⟩
    · rw [hpath] at hp
      simp at hp
    · have hstar : byte '/' ∉ req.url.path := by rw [hpath]; decide
      rw [hp] at hstar
      exact absurd (List.mem_append_right a List.mem_cons_self) hstar
    · rw [hpath, ← List.nil_append (byte '/' :: p)] at hp
      exact ((append_cons_inj List.not_mem_nil ha).1 hp).1.symm
  rw [hnil, List.nil_append] at hp
  have hbucket := h.bucket
  rw [hp, ← List.nil_append (byte '/' :: _), splitOn_two List.not_mem_nil hslash] at hbucket
  exact ⟨object, h.method, h.host, h.location, bucket, hp, hslash,
    (validateBucketName_iff bucket).1 hbucket⟩

/-- What it is misread as depends on the rest of the path only. -/
theorem InBucket.object_eq {object' : Bytes} (h : mosa.InBucket req object)
    (h' : mosa.InBucket req object') : object = object' := by
  obtain ⟨bucket, hp, hslash, -⟩ := h.path
  obtain ⟨bucket', hp', hslash', -⟩ := h'.path
  exact ((append_cons_inj hslash hslash').1 (List.cons.inj (hp.symm.trans hp')).2).2

theorem misread_of_absolute (h : mosa.InBucket req object) (ha : req.url.Absolute) :
    mosa.Misread req ↔ object = [] := by
  constructor
  · intro hmis
    cases hmis with
    | absolute h' => exact h.object_eq h'
    | query h' hn | bucket h' hn => exact absurd ha hn
    | object _ h' ho hn => exact absurd ha hn
  · rintro rfl
    exact .absolute h ha

theorem misread_of_not_escapesSlash (h : mosa.InBucket req object) (ha : ¬req.url.Absolute)
    (he : ¬EscapesSlash req.url) : mosa.Misread req ↔
      object = [] ∧ (req.url.forceQuery = true ∨ req.url.rawQuery ≠ []) := by
  constructor
  · intro hmis
    cases hmis with
    | absolute h' hn => exact absurd hn ha
    | query h' _ _ hq => exact ⟨h.object_eq h', hq⟩
    | bucket h' _ hn => exact absurd hn he
    | object _ h' ho _ hn => exact absurd hn he
  · rintro ⟨rfl, hq⟩
    exact .query h ha he hq

theorem misread_of_escapesSlash (h : mosa.InBucket req object) (ha : ¬req.url.Absolute)
    (he : EscapesSlash req.url) : mosa.Misread req ↔
      (object = [] ↔ PastSecondSlash (req.url.escapedPath ++ req.url.query)) := by
  constructor
  · intro hmis
    cases hmis with
    | absolute h' hn => exact absurd hn ha
    | query h' _ hn => exact absurd he hn
    | bucket h' _ _ hs => exact iff_of_true (h.object_eq h') hs
    | object o h' ho _ _ hs => exact iff_of_false (h.object_eq h' ▸ ho) hs
  · intro hiff
    by_cases ho : object = []
    · subst ho
      exact .bucket h ha he (hiff.1 rfl)
    · exact .object object h ho ha he fun hs => ho (hiff.2 hs)

/-- **Object reads.** For every parsed request: that it is intercepted exactly if it reads an object
is so exactly if it is not misread. -/
theorem intercepts_iff_readsObject (mosa : MinioObjectStorageAdapter) (req : Request)
    (hparsed : req.url.Parsed) :
    (mosa.shouldIntercept req = true ↔ mosa.ReadsObject req) ↔ ¬mosa.Misread req := by
  rw [shouldIntercept_iff]
  by_cases hb : ∃ object, mosa.InBucket req object
  · obtain ⟨object, h⟩ := hb
    obtain ⟨bucket, hp, hslash, -⟩ := h.path
    rw [readsObject_iff h, intercepts_iff h]
    by_cases ha : req.url.Absolute
    · have hpast := pastSecondSlash_of_absolute hparsed hp ha
      rw [misread_of_absolute h ha]
      tauto
    · by_cases he : EscapesSlash req.url
      · rw [misread_of_escapesSlash h ha he, pastSecondSlash_string hparsed hp ha]
        tauto
      · have hquery : req.url.query ≠ [] ↔ req.url.forceQuery = true ∨
          req.url.rawQuery ≠ [] := by
          unfold URL.query
          split_ifs with hq
          · exact iff_of_true nofun hq
          · exact iff_of_false (not_not.2 rfl) hq
        rw [misread_of_not_escapesSlash h ha he,
          pastSecondSlash_of_not_escapesSlash hparsed hp hslash ha he, hquery]
        tauto
  · have hintercepts : ¬mosa.Intercepts req := fun h => hb (inBucket_of_intercepts hparsed h)
    have hreads : ¬mosa.ReadsObject req := fun h => hb (inBucket_of_readsObject h)
    refine iff_of_true (iff_of_false hintercepts hreads) fun hmis => hb ?_
    cases hmis with
    | absolute h | query h | bucket h | object object h => exact ⟨_, h⟩

/-- `GET /bucket/`, with this query, which lists the bucket. -/
def listBucket (rawQuery : Bytes) : Request where
  method := methodGet
  url := ⟨[], [], none, [], ascii "/bucket/", [], false, false, rawQuery⟩
  host := ascii "host.lima.internal:9000"
  header := ∅
  body := []

/-- `GET /bucket/object`. -/
def readObject : Request :=
  { listBucket [] with url := ⟨[], [], none, [], ascii "/bucket/object", [], false, false, []⟩ }

theorem parsed_path (t rawQuery : Bytes) :
    (⟨[], [], none, [], byte '/' :: t, [], false, false, rawQuery⟩ : URL).Parsed where
  scheme := List.not_mem_nil
  relative := fun _ => ⟨rfl, rfl, rfl⟩
  opaqueData := fun h => absurd rfl h
  path := Or.inr (Or.inr ⟨_, rfl⟩)
  rawPath := Or.inl rfl
  omitHost := nofun

/-- Neither an absolute URL, nor an escaped slash, nor a query. -/
theorem not_misread (ha : ¬req.url.Absolute) (he : ¬EscapesSlash req.url)
    (hq : ¬(req.url.forceQuery = true ∨ req.url.rawQuery ≠ [])) : ¬mosa.Misread req := by
  rintro (⟨-, ha'⟩ | ⟨-, -, -, hq'⟩ | ⟨-, -, he'⟩ | ⟨-, -, -, -, he'⟩)
  · exact ha ha'
  · exact hq hq'
  · exact he he'
  · exact he he'

theorem not_escapesSlash_bucket {u : URL}
    (h : unescape ((u.escapedPath.splitOn (byte '/')).getD 1 []) = some (ascii "bucket")) :
    ¬EscapesSlash u := by
  rintro ⟨s, hs, hslash⟩
  obtain rfl := Option.some.inj (h.symm.trans hs)
  exact absurd hslash (by decide)

theorem not_readsObject_listBucket (rawQuery : Bytes) :
    ¬mosa.ReadsObject (listBucket rawQuery) := by
  intro h
  obtain ⟨bucket, object, hp, hslash, -, -, -, hobject⟩ := h.path
  have heq : ascii "bucket" ++ byte '/' :: [] = bucket ++ byte '/' :: object := (List.cons.inj hp).2
  exact hobject ((append_cons_inj (by decide) hslash).1 heq).2.symm

/-- A listing without a query is not intercepted, and an object read is. -/
theorem intercepts_iff_readsObject_listBucket :
    let mosa : MinioObjectStorageAdapter := ⟨ascii "host.lima.internal:9000"⟩
    (mosa.shouldIntercept (listBucket []) = true ↔ mosa.ReadsObject (listBucket [])) ∧
      mosa.shouldIntercept readObject = true ∧ mosa.ReadsObject readObject := by
  intro mosa
  have hlist : ¬mosa.Misread (listBucket []) := not_misread (fun ha => ha.1 rfl)
    (not_escapesSlash_bucket (by decide +kernel)) (by decide)
  have hread : ¬mosa.Misread readObject := not_misread (fun ha => ha.1 rfl)
    (not_escapesSlash_bucket (by decide +kernel)) (by decide)
  have hintercepts : mosa.shouldIntercept readObject = true := by decide
  exact ⟨(intercepts_iff_readsObject mosa _ (parsed_path _ _)).2 hlist, hintercepts,
    ((intercepts_iff_readsObject mosa _ (parsed_path _ _)).2 hread).1 hintercepts⟩

/-- A listing with a query is. -/
theorem intercepts_listBucket :
    (listBucket (ascii "list-type=2")).url.Parsed ∧
      (⟨ascii "host.lima.internal:9000"⟩ : MinioObjectStorageAdapter).shouldIntercept
        (listBucket (ascii "list-type=2")) = true ∧
      ¬(⟨ascii "host.lima.internal:9000"⟩ : MinioObjectStorageAdapter).ReadsObject
        (listBucket (ascii "list-type=2")) :=
  ⟨parsed_path _ _, by decide, not_readsObject_listBucket _⟩

end MinioObjectStorageAdapter

end AutomaticCache
