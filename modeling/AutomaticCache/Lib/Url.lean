import AutomaticCache.Lib.Bytes

/-!
# Request URLs

The URL of a parsed HTTP request and its text, as `net/url` builds them: `URL.string`, and below it
the percent-encoding of a path and of a host. A request URL has no fragment. `user` is the rendered
userinfo.
-/

open Bytes

structure URL where
  scheme : Bytes
  opaqueData : Bytes
  user : Option Bytes
  host : Bytes
  path : Bytes
  /-- The path as it was sent, where that is not the default encoding of `path`. -/
  rawPath : Bytes
  omitHost : Bool
  forceQuery : Bool
  rawQuery : Bytes
  deriving DecidableEq, Repr

namespace URL

/-- Which part of a URL is escaped. -/
inductive Encoding
  | path
  | host
  deriving DecidableEq, Repr

def isAlphanumeric (c : UInt8) : Bool :=
  (byte 'a' ≤ c && c ≤ byte 'z') || (byte 'A' ≤ c && c ≤ byte 'Z') ||
    (byte '0' ≤ c && c ≤ byte '9')

def shouldEscape (c : UInt8) (mode : Encoding) : Bool :=
  if isAlphanumeric c then false
  else if mode = .host ∧ (c ∈ ascii "!$&'()*+,;=:[]<>" ∨ c = 0x22) then false
  else if c ∈ ascii "-_.~" then false
  else if mode = .path ∧ c ∈ ascii "$&+,/:;=?@" then c == byte '?'
  else true

/-- `0` to `15` as a hexadecimal digit, in upper case. -/
def upperhex (n : UInt8) : UInt8 := if n < 10 then byte '0' + n else byte 'A' + (n - 10)

def escape (s : Bytes) (mode : Encoding) : Bytes :=
  s.flatMap fun c =>
    if shouldEscape c mode then [byte '%', upperhex (c / 16), upperhex (c % 16)] else [c]

def ishex (c : UInt8) : Bool :=
  (byte '0' ≤ c && c ≤ byte '9') || (byte 'a' ≤ c && c ≤ byte 'f') ||
    (byte 'A' ≤ c && c ≤ byte 'F')

def unhex (c : UInt8) : UInt8 :=
  if byte '0' ≤ c ∧ c ≤ byte '9' then c - byte '0'
  else if byte 'a' ≤ c ∧ c ≤ byte 'f' then c - byte 'a' + 10
  else c - byte 'A' + 10

/-- The decoded path; `none` where a percent sign is not followed by two hexadecimal digits. -/
def unescape : Bytes → Option Bytes
  | [] => some []
  | c :: s =>
    if c = byte '%' then
      match s with
      | hi :: lo :: rest =>
        if ishex hi && ishex lo then (unescape rest).map fun r => (unhex hi * 16 + unhex lo) :: r
        else none
      | _ => none
    else (unescape s).map fun r => c :: r

def validEncoded (s : Bytes) : Bool :=
  s.all fun c => c ∈ ascii "!$&'()*+,;=:@[]%" || !shouldEscape c .path

def escapedPath (u : URL) : Bytes :=
  if u.rawPath ≠ [] ∧ validEncoded u.rawPath ∧ unescape u.rawPath = some u.path then u.rawPath
  else if u.path = ascii "*" then ascii "*"
  else escape u.path .path

/-- `//`, the userinfo and the host, where the URL has an authority. -/
def authority (u : URL) : Bytes :=
  if u.scheme = [] ∧ u.host = [] ∧ u.user = none then []
  else if u.omitHost ∧ u.host = [] ∧ u.user = none then []
  else
    (if u.host ≠ [] ∨ u.path ≠ [] ∨ u.user ≠ none then ascii "//" else []) ++
    (match u.user with
      | some ui => ui ++ ascii "@"
      | none => []) ++
    (if u.host ≠ [] then escape u.host .host else [])

/-- The path, after a slash where it must not run into the host, or after `./` where its first
segment would be read as a scheme. -/
def pathAfter (u : URL) (buf : Bytes) : Bytes :=
  let path := u.escapedPath
  let buf := if path ≠ [] ∧ path.head? ≠ some (byte '/') ∧
    u.host ≠ [] then buf ++ ascii "/" else buf
  let buf := if buf = [] ∧ byte ':' ∈ path.takeWhile (· ≠ byte '/') then ascii "./" else buf
  buf ++ path

/-- `String()`. -/
def string (u : URL) : Bytes :=
  let scheme := if u.scheme ≠ [] then u.scheme ++ ascii ":" else []
  (if u.opaqueData ≠ [] then scheme ++ u.opaqueData else u.pathAfter (scheme ++ u.authority)) ++
  (if u.forceQuery ∨ u.rawQuery ≠ [] then ascii "?" ++ u.rawQuery else [])

/-! ## Slashes -/

theorem unhex_upperhex : ∀ n : Fin 256,
    (ishex (upperhex (UInt8.ofFin n / 16)) && ishex (upperhex (UInt8.ofFin n % 16))) = true ∧
      unhex (upperhex (UInt8.ofFin n / 16)) * 16 + unhex (upperhex (UInt8.ofFin n % 16)) =
        UInt8.ofFin n := by
  decide +kernel

theorem shouldEscape_percent (mode : Encoding) : shouldEscape (byte '%') mode = true := by
  cases mode <;> decide

theorem unescape_cons {c : UInt8} (hc : c ≠ byte '%') (s : Bytes) :
    unescape (c :: s) = (unescape s).map fun r => c :: r := by
  rw [unescape.eq_def]
  exact if_neg hc

theorem unescape_percent (hi lo : UInt8) (s : Bytes) :
    unescape (byte '%' :: hi :: lo :: s) =
      if ishex hi && ishex lo then (unescape s).map fun r => (unhex hi * 16 + unhex lo) :: r
      else none := by
  rw [unescape.eq_def]
  exact if_pos rfl

theorem unescape_percent_of_short {s : Bytes} (hs : s.length < 2) :
    unescape (byte '%' :: s) = none := by
  match s, hs with
  | [], _ | [_], _ =>
    rw [unescape.eq_def]
    exact if_pos rfl

theorem unescape_eq_nil {s : Bytes} (h : unescape s = some []) : s = [] := by
  induction s using unescape.induct with
  | case1 => rfl
  | case2 hi lo rest hok =>
    rw [unescape_percent, if_pos hok] at h
    obtain ⟨r, -, hr⟩ := Option.map_eq_some_iff.1 h
    cases hr
  | case3 hi lo rest hbad =>
    rw [unescape_percent, if_neg hbad] at h
    cases h
  | case4 s hs =>
    match s, hs with
    | [], _ | [_], _ => cases (unescape_percent_of_short (by simp)).symm.trans h
    | hi :: lo :: rest, hs => exact (hs hi lo rest rfl).elim
  | case5 c s hc =>
    rw [unescape_cons hc] at h
    obtain ⟨r, -, hr⟩ := Option.map_eq_some_iff.1 h
    cases hr

/-- Decoding undoes encoding. -/
theorem unescape_escape (s : Bytes) (mode : Encoding) : unescape (escape s mode) = some s := by
  induction s with
  | nil => rfl
  | cons c s ih =>
    show unescape ((if shouldEscape c mode then _ else _) ++ escape s mode) = _
    split_ifs with hc
    · have hbyte : (ishex (upperhex (c / 16)) && ishex (upperhex (c % 16))) = true ∧
          unhex (upperhex (c / 16)) * 16 + unhex (upperhex (c % 16)) = c := unhex_upperhex c.toFin
      show unescape (byte '%' :: _ :: _ :: escape s mode) = _
      rw [unescape_percent, if_pos hbyte.1, ih, Option.map_some, hbyte.2]
    · have hpercent : c ≠ byte '%' := by
        rintro rfl
        exact hc (shouldEscape_percent mode)
      show unescape (c :: escape s mode) = _
      rw [unescape_cons hpercent, ih, Option.map_some]

/-- A byte that is no part of an escape is decoded to itself, and what is around it on its own. -/
theorem unescape_append_cons {sep : UInt8} (hsep : sep ≠ byte '%') (hhex : ishex sep = false)
    (t : Bytes) {s p : Bytes} (h : unescape (s ++ sep :: t) = some p) :
    ∃ s' t', unescape s = some s' ∧ unescape t = some t' ∧ p = s' ++ sep :: t' := by
  induction s using unescape.induct generalizing p with
  | case1 =>
    rw [List.nil_append, unescape_cons hsep] at h
    obtain ⟨t', ht', rfl⟩ := Option.map_eq_some_iff.1 h
    exact ⟨[], t', rfl, ht', rfl⟩
  | case2 hi lo rest hok ih =>
    simp only [List.cons_append] at h
    rw [unescape_percent, if_pos hok] at h
    obtain ⟨p', hp', rfl⟩ := Option.map_eq_some_iff.1 h
    obtain ⟨s', t', hs', ht', rfl⟩ := ih hp'
    exact ⟨_ :: s', t', by rw [unescape_percent, if_pos hok, hs', Option.map_some], ht', rfl⟩
  | case3 hi lo rest hbad =>
    simp only [List.cons_append] at h
    rw [unescape_percent, if_neg hbad] at h
    cases h
  | case4 s hs =>
    -- an escape would have to take the byte in
    match s, hs with
    | [], _ =>
      cases t with
      | nil => cases (unescape_percent_of_short (s := [sep]) (Nat.lt_succ_self 1)).symm.trans h
      | cons lo t =>
        have hbad : ¬(ishex sep && ishex lo) = true := by rw [hhex]; exact nofun
        cases ((unescape_percent sep lo t).trans (if_neg hbad)).symm.trans h
    | [hi], _ =>
      have hbad : ¬(ishex hi && ishex sep) = true := by rw [hhex, Bool.and_false]; exact nofun
      cases ((unescape_percent hi sep t).trans (if_neg hbad)).symm.trans h
    | hi :: lo :: rest, hs => exact (hs hi lo rest rfl).elim
  | case5 c s hc ih =>
    rw [List.cons_append, unescape_cons hc] at h
    obtain ⟨p', hp', rfl⟩ := Option.map_eq_some_iff.1 h
    obtain ⟨s', t', hs', ht', rfl⟩ := ih hp'
    exact ⟨c :: s', t', by rw [unescape_cons hc, hs', Option.map_some], ht', rfl⟩

/-- What `url.ParseRequestURI` leaves of a request's target. -/
structure Parsed (u : URL) : Prop where
  scheme : byte '/' ∉ u.scheme
  relative : u.scheme = [] → u.opaqueData = [] ∧ u.user = none ∧ u.host = []
  opaqueData : u.opaqueData ≠ [] → u.path = []
  path : u.path = [] ∨ u.path = ascii "*" ∨ ∃ p, u.path = byte '/' :: p
  rawPath : u.rawPath = [] ∨ ∃ p, u.rawPath = byte '/' :: p
  omitHost : u.omitHost = true → u.host = [] ∧ u.user = none

/-- Its text begins with a scheme and `//`. -/
def Absolute (u : URL) : Prop := u.scheme ≠ [] ∧ u.omitHost = false

/-- The query with its question mark. -/
def query (u : URL) : Bytes :=
  if u.forceQuery ∨ u.rawQuery ≠ [] then ascii "?" ++ u.rawQuery else []

section parsed

variable {u : URL} {p : Bytes} (h : u.Parsed) (hp : u.path = byte '/' :: p)

include h hp

theorem escapedPath_cons : ∃ e, u.escapedPath = byte '/' :: e ∧ unescape e = some p := by
  unfold escapedPath
  split_ifs with hraw hstar
  · obtain ⟨hne, -, hraw⟩ := hraw
    obtain hnil | ⟨e, he⟩ := h.rawPath
    · exact absurd hnil hne
    · rw [he, hp, unescape_cons (by decide)] at hraw
      obtain ⟨p', hp', heq⟩ := Option.map_eq_some_iff.1 hraw
      obtain rfl := (List.cons.inj heq).2
      exact ⟨e, he, hp'⟩
  · rw [hp] at hstar
    cases hstar
  · rw [hp]
    exact ⟨escape p .path, rfl, unescape_escape p .path⟩

theorem string_eq : u.string = (if u.scheme ≠ [] then u.scheme ++ ascii ":" else []) ++
    u.authority ++ u.escapedPath ++ u.query := by
  obtain ⟨e, he, -⟩ := escapedPath_cons h hp
  have hrootless : u.opaqueData = [] := by
    by_contra hne
    rw [h.opaqueData hne] at hp
    cases hp
  have hslash : ¬(byte '/' :: e ≠ [] ∧ (byte '/' :: e).head? ≠ some (byte '/') ∧
      u.host ≠ []) :=
    fun hh => hh.2.1 rfl
  have hcolon : byte ':' ∉ (byte '/' :: e).takeWhile (· ≠ byte '/') := by simp
  unfold string query pathAfter
  dsimp only
  rw [hrootless, if_neg (not_not.2 rfl), he, if_neg hslash, if_neg fun hh => hcolon hh.2]

/-- After the `//` of a scheme there is something. -/
theorem string_of_absolute (ha : u.Absolute) : ∃ rest, rest ≠ [] ∧
    u.string = u.scheme ++ ascii ":" ++ byte '/' :: byte '/' :: rest := by
  obtain ⟨e, he, -⟩ := escapedPath_cons h hp
  have hauthority : ∃ rest, u.authority = byte '/' :: byte '/' :: rest := by
    have homit : ¬(u.omitHost = true ∧ u.host = [] ∧ u.user = none) :=
      fun hh => Bool.false_ne_true (ha.2.symm.trans hh.1)
    have hsome : u.host ≠ [] ∨ u.path ≠ [] ∨ u.user ≠ none :=
      Or.inr (Or.inl (by rw [hp]; exact nofun))
    unfold authority
    rw [if_neg (fun hh => ha.1 hh.1), if_neg homit, if_pos hsome]
    exact ⟨_, rfl⟩
  obtain ⟨rest, hrest⟩ := hauthority
  refine ⟨rest ++ u.escapedPath ++ u.query, ?_, ?_⟩
  · rw [he]
    simp
  · rw [string_eq h hp, if_pos ha.1, hrest]
    simp

/-- Without it, no slash comes before the path. -/
theorem string_of_not_absolute (ha : ¬u.Absolute) : ∃ start, byte '/' ∉ start ∧
    u.string = start ++ u.escapedPath ++ u.query := by
  rw [string_eq h hp]
  by_cases hscheme : u.scheme = []
  · obtain ⟨-, huser, hhost⟩ := h.relative hscheme
    have hauthority : u.authority = [] := by
      unfold authority
      rw [if_pos ⟨hscheme, hhost, huser⟩]
    rw [if_neg (not_not.2 hscheme), hauthority]
    exact ⟨[], List.not_mem_nil, rfl⟩
  · have homit : u.omitHost = true := by
      by_contra hne
      exact ha ⟨hscheme, Bool.eq_false_iff.2 hne⟩
    obtain ⟨hhost, huser⟩ := h.omitHost homit
    have hauthority : u.authority = [] := by
      unfold authority
      rw [if_neg fun hh => hscheme hh.1, if_pos ⟨homit, hhost, huser⟩]
    rw [if_pos hscheme, hauthority, List.append_nil]
    refine ⟨u.scheme ++ ascii ":", fun hmem => ?_, rfl⟩
    rcases List.mem_append.1 hmem with hmem | hmem
    · exact h.scheme hmem
    · exact absurd hmem (by decide)

end parsed

end URL
