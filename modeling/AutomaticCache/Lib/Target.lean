import AutomaticCache.Lib.Url
import Mathlib.Data.List.TakeWhile

/-!
# Request targets

How `net/url` reads the target of a request and how it writes it again. A client reads the same
target back exactly if it has sent `*` or a path, with or without a query, in which nothing is left
unescaped that a path has to escape (`requestURI_eq_iff`). What it reads has the shape that `Parsed`
says (`parsed_of_parse`).

`parseAuthority` is what reads the userinfo and the host of an absolute URL, which are not written
again.
-/

open Bytes

namespace URL

/-! ## Read -/

def isLetter (c : UInt8) : Bool :=
  (byte 'a' ≤ c && c ≤ byte 'z') || (byte 'A' ≤ c && c ≤ byte 'Z')

/-- Not only the first byte of a scheme, which is a letter. -/
def isSchemeByte (c : UInt8) : Bool := isAlphanumeric c || c ∈ ascii "+-."

/-- `none` where a colon comes first. -/
def getScheme (rawURL : Bytes) : Option (Bytes × Bytes) :=
  let scheme := rawURL.takeWhile isSchemeByte
  match rawURL.dropWhile isSchemeByte with
  | c :: path =>
    if c ≠ byte ':' then some ([], rawURL)
    else
      match scheme with
      | [] => none
      | first :: _ => some (if isLetter first then (scheme, path) else ([], rawURL))
  | [] => some ([], rawURL)

def isCTL (c : UInt8) : Bool := c < 0x20 || c == 0x7f

/-- `stringContainsCTLByte`. -/
def containsCTLByte (s : Bytes) : Bool := s.any isCTL

def toLower (c : UInt8) : UInt8 := if byte 'A' ≤ c ∧ c ≤ byte 'Z' then c + 0x20 else c

/-- What comes before the first question mark. -/
def beforeQuery (rest : Bytes) : Bytes := rest.takeWhile (· ≠ byte '?')

/-- `ForceQuery` and `RawQuery`. -/
def cutQuery (rest : Bytes) : Bool × Bytes :=
  match rest.dropWhile (· ≠ byte '?') with
  | [] => (false, [])
  | _ :: rawQuery => (rawQuery = [], rawQuery)

def setPath (u : URL) (p : Bytes) : Option URL :=
  (unescape p).map fun path =>
    { u with path := path, rawPath := if escape path .path = p then [] else p }

/-- `url.ParseRequestURI`. -/
def parse (parseAuthority : Bytes → Option (Option Bytes × Bytes)) (rawURL : Bytes) :
    Option URL :=
  if containsCTLByte rawURL ∨ rawURL = [] then none
  else if rawURL = ascii "*" then some ⟨[], [], none, [], ascii "*", [], false, false, []⟩
  else
    (getScheme rawURL).bind fun (scheme, rest) =>
      let (forceQuery, rawQuery) := cutQuery rest
      let rest := beforeQuery rest
      let u : URL := ⟨scheme.map toLower, [], none, [], [], [], false, forceQuery, rawQuery⟩
      match rest with
      | c :: rest' =>
        if c ≠ byte '/' then if scheme = [] then none else some { u with opaqueData := rest }
        else
          match rest' with
          | c' :: rest'' =>
            if scheme ≠ [] ∧ c' = byte '/' then
              (parseAuthority (rest''.takeWhile (· ≠ byte '/'))).bind fun (user, host) =>
                { u with user := user, host := host }.setPath (rest''.dropWhile (· ≠ byte '/'))
            else { u with omitHost := scheme ≠ [] }.setPath rest
          | [] => { u with omitHost := scheme ≠ [] }.setPath rest
      | [] => if scheme = [] then none else some u

/-! ## Written -/

def requestURI (u : URL) : Bytes :=
  (if u.opaqueData = [] then if u.escapedPath = [] then ascii "/" else u.escapedPath
    else if ascii "//" <+: u.opaqueData then u.scheme ++ ascii ":" ++ u.opaqueData
    else u.opaqueData) ++ u.query

/-- The asterisk, or a path in which every byte is one that a path may have. -/
def Kept (target : Bytes) : Prop :=
  target = ascii "*" ∨
    (target.head? = some (byte '/') ∧ validEncoded (beforeQuery target) = true)

instance : DecidablePred Kept := fun _ => inferInstanceAs (Decidable (_ ∨ _))

/-! ## What is read -/

/-- A scheme begins with a letter. -/
def IsScheme (scheme : Bytes) : Prop :=
  (∃ c s, scheme = c :: s ∧ isLetter c = true) ∧ ∀ b ∈ scheme, isSchemeByte b = true

/-- The targets that can be read, with what is read. -/
inductive Reads : Bytes → URL → Prop
  | asterisk : Reads (ascii "*") ⟨[], [], none, [], ascii "*", [], false, false, []⟩
  | relative {target : Bytes} {u : URL} (hhead : target.head? = some (byte '/'))
    (hpath : setPath ⟨[], [], none, [], [], [], false, (cutQuery target).1, (cutQuery target).2⟩
      (beforeQuery target) = some u) : Reads target u
  | rootless {scheme rest : Bytes} (hscheme : IsScheme scheme)
    (hhead : (beforeQuery rest).head? ≠ some (byte '/')) :
    Reads (scheme ++ byte ':' :: rest) ⟨scheme.map toLower, beforeQuery rest, none, [], [], [],
      false, (cutQuery rest).1, (cutQuery rest).2⟩
  | absolute {scheme rest p host : Bytes} {user : Option Bytes} {omitHost : Bool} {u : URL}
    (hscheme : IsScheme scheme) (hp : p = [] ∨ p.head? = some (byte '/'))
    (homit : omitHost = true → host = [] ∧ user = none)
    (hpath : setPath ⟨scheme.map toLower, [], user, host, [], [], omitHost, (cutQuery rest).1,
      (cutQuery rest).2⟩ p = some u) : Reads (scheme ++ byte ':' :: rest) u

theorem getScheme_eq {s scheme rest : Bytes} (h : getScheme s = some (scheme, rest)) :
    (scheme = [] ∧ rest = s) ∨ (IsScheme scheme ∧ s = scheme ++ byte ':' :: rest) := by
  have hsplit := List.takeWhile_append_dropWhile (p := isSchemeByte) (l := s)
  unfold getScheme at h
  dsimp only at h
  split at h
  · rename_i c path hdrop
    split_ifs at h with hc
    · cases h
      exact Or.inl ⟨rfl, rfl⟩
    · obtain rfl := not_not.1 hc
      split at h
      · cases h
      · rename_i first t htake
        split_ifs at h with hletter
        · cases h
          refine Or.inr ⟨⟨⟨first, t, htake, hletter⟩, fun b hb => ?_⟩, ?_⟩
          · exact List.mem_takeWhile_imp hb
          · rw [← hdrop, hsplit]
        · cases h
          exact Or.inl ⟨rfl, rfl⟩
  · cases h
    exact Or.inl ⟨rfl, rfl⟩

theorem head_dropWhile_slash (s : Bytes) :
    s.dropWhile (· ≠ byte '/') = [] ∨ (s.dropWhile (· ≠ byte '/')).head? =
    some (byte '/') := by
  cases hs : s.dropWhile (· ≠ byte '/') with
  | nil => exact Or.inl rfl
  | cons c t =>
    have hc := List.head_dropWhile_not (p := fun b => decide (b ≠ byte '/')) (l := s)
      (by rw [hs]; nofun)
    simp only [hs, List.head_cons, decide_eq_false_iff_not, not_not] at hc
    exact Or.inr (by rw [hc]; rfl)

theorem head_of_beforeQuery {s : Bytes} {c : UInt8} {t : Bytes} (h : beforeQuery s = c :: t) :
    s.head? = some c := by
  have hhead : (s.takeWhile (· ≠ byte '?')).head? = some c := by
    show (beforeQuery s).head? = _
    rw [h, List.head?_cons]
  rw [List.head?_takeWhile] at hhead
  exact (Option.filter_eq_some_iff.1 hhead).1

theorem reads_of_parse {parseAuthority : Bytes → Option (Option Bytes × Bytes)} {target : Bytes}
    {u : URL} (h : parse parseAuthority target = some u) : Reads target u := by
  unfold parse at h
  split_ifs at h with hbad hstar
  · cases h
    rw [hstar]
    exact .asterisk
  · obtain ⟨⟨scheme, rest⟩, hscheme, hread⟩ := Option.bind_eq_some_iff.1 h
    dsimp only at hread
    rcases getScheme_eq hscheme with ⟨rfl, rfl⟩ | ⟨hs, rfl⟩
    · split at hread
      · rename_i c rest' hrest
        split_ifs at hread with hc hnil
        · exact absurd rfl hnil
        · obtain rfl := not_not.1 hc
          refine .relative (head_of_beforeQuery hrest) ?_
          split at hread
          · rw [if_neg fun hh => hh.1 rfl] at hread
            exact hread
          · exact hread
      · rw [if_pos rfl] at hread
        cases hread
    · have hne : scheme ≠ [] := by
        obtain ⟨⟨c, s, rfl, -⟩, -⟩ := hs
        exact List.cons_ne_nil c s
      split at hread
      · rename_i c rest' hrest
        split_ifs at hread with hc
        · cases hread
          refine .rootless hs ?_
          rw [hrest, List.head?_cons]
          exact fun he => hc (Option.some.inj he)
        · obtain rfl := not_not.1 hc
          split at hread
          · split_ifs at hread with hslash
            · obtain ⟨⟨user, host⟩, -, hpath⟩ := Option.bind_eq_some_iff.1 hread
              refine .absolute hs (head_dropWhile_slash _) ?_ hpath
              exact nofun
            · refine .absolute hs (Or.inr ?_) (fun _ => ⟨rfl, rfl⟩) hread
              rw [hrest, List.head?_cons]
          · refine .absolute hs (Or.inr ?_) (fun _ => ⟨rfl, rfl⟩) hread
            rw [hrest, List.head?_cons]
      · rename_i hrest
        rw [if_neg hne] at hread
        cases hread
        have hrootless : Reads (scheme ++ byte ':' :: rest) _ :=
          .rootless hs (by rw [hrest]; nofun)
        rw [hrest] at hrootless
        exact hrootless

/-! ## The shape of what is read -/

theorem setPath_eq {u u' : URL} {p : Bytes} (h : u.setPath p = some u') : ∃ path,
    unescape p = some path ∧
      u' = { u with path := path, rawPath := if escape path .path = p then [] else p } := by
  obtain ⟨path, hpath, rfl⟩ := Option.map_eq_some_iff.1 h
  exact ⟨path, hpath, rfl⟩

theorem unescape_slash {p path : Bytes} (hp : p.head? = some (byte '/'))
    (h : unescape p = some path) : ∃ t, p = byte '/' :: t ∧ ∃ t', path = byte '/' :: t' := by
  obtain ⟨t, rfl⟩ : ∃ t, p = byte '/' :: t := by
    cases p with
    | nil => cases hp
    | cons c t => exact ⟨t, by rw [Option.some.inj hp]⟩
  rw [unescape_cons (by decide)] at h
  obtain ⟨t', -, rfl⟩ := Option.map_eq_some_iff.1 h
  exact ⟨t, rfl, t', rfl⟩

theorem slash_not_mem_toLower {scheme : Bytes} (h : IsScheme scheme) :
    byte '/' ∉ scheme.map toLower := by
  have hbyte : ∀ n : Fin 256, isSchemeByte (UInt8.ofFin n) = true →
      toLower (UInt8.ofFin n) ≠ byte '/' := by decide +kernel
  intro hmem
  obtain ⟨b, hb, heq⟩ := List.mem_map.1 hmem
  exact hbyte b.toFin (h.2 b hb) heq

theorem map_toLower_ne_nil {scheme : Bytes} (h : IsScheme scheme) : scheme.map toLower ≠ [] := by
  obtain ⟨⟨c, s, rfl, -⟩, -⟩ := h
  exact List.cons_ne_nil _ _

/-- **What is read.** -/
theorem Reads.parsed {target : Bytes} {u : URL} (h : Reads target u) : u.Parsed := by
  have hraw {p path : Bytes} (hp : p = [] ∨ p.head? = some (byte '/'))
      (hpath : unescape p = some path) :
      (path = [] ∨ path = ascii "*" ∨ ∃ t, path = byte '/' :: t) ∧
        ((if escape path .path = p then [] else p) = [] ∨
          ∃ t, (if escape path .path = p then [] else p) = byte '/' :: t) := by
    rcases hp with rfl | hp
    · cases hpath
      exact ⟨Or.inl rfl, Or.inl rfl⟩
    · obtain ⟨t, rfl, t', rfl⟩ := unescape_slash hp hpath
      refine ⟨Or.inr (Or.inr ⟨t', rfl⟩), ?_⟩
      split_ifs
      · exact Or.inl rfl
      · exact Or.inr ⟨t, rfl⟩
  cases h with
  | asterisk =>
    exact ⟨List.not_mem_nil, fun _ => ⟨rfl, rfl, rfl⟩, fun hne => absurd rfl hne,
      Or.inr (Or.inl rfl), Or.inl rfl, nofun⟩
  | relative hhead hpath =>
    obtain ⟨path, hunescape, rfl⟩ := setPath_eq hpath
    have hp : (beforeQuery target).head? = some (byte '/') := by
      unfold beforeQuery
      rw [List.head?_takeWhile, hhead]
      rfl
    obtain ⟨hpath, hrawPath⟩ := hraw (Or.inr hp) hunescape
    exact ⟨List.not_mem_nil, fun _ => ⟨rfl, rfl, rfl⟩, fun hne => absurd rfl hne,
      hpath, hrawPath,
      nofun⟩
  | rootless hscheme =>
    exact ⟨slash_not_mem_toLower hscheme, fun hnil => absurd hnil (map_toLower_ne_nil hscheme),
      fun _ => rfl, Or.inl rfl, Or.inl rfl, nofun⟩
  | absolute hscheme hp homit hpath =>
    obtain ⟨path, hunescape, rfl⟩ := setPath_eq hpath
    obtain ⟨hpath, hrawPath⟩ := hraw hp hunescape
    exact ⟨slash_not_mem_toLower hscheme, fun hnil => absurd hnil (map_toLower_ne_nil hscheme),
      fun hne => absurd rfl hne, hpath, hrawPath, homit⟩

/-! ## What is written again -/

theorem beforeQuery_append {s : Bytes} {u : URL} (hforce : u.forceQuery = (cutQuery s).1)
    (hraw : u.rawQuery = (cutQuery s).2) : beforeQuery s ++ u.query = s := by
  have hsplit := List.takeWhile_append_dropWhile (p := fun b => decide (b ≠ byte '?')) (l := s)
  unfold beforeQuery query
  rw [hforce, hraw]
  unfold cutQuery
  cases hs : s.dropWhile (· ≠ byte '?') with
  | nil =>
    rw [hs] at hsplit
    exact hsplit
  | cons c rawQuery =>
    have hc := List.head_dropWhile_not (p := fun b => decide (b ≠ byte '?')) (l := s)
      (by rw [hs]; nofun)
    simp only [hs, List.head_cons, decide_eq_false_iff_not, not_not] at hc
    have hsome : decide (rawQuery = []) = true ∨ rawQuery ≠ [] := by
      rw [decide_eq_true_iff]
      exact em _
    rw [hs, hc] at hsplit
    dsimp only
    rw [if_pos hsome]
    exact hsplit

/-- What is escaped needs no more escapes. -/
theorem validEncoded_escape (s : Bytes) : validEncoded (escape s .path) = true := by
  have hhex : ∀ n : Fin 256, validEncoded [byte '%', upperhex (UInt8.ofFin n / 16),
      upperhex (UInt8.ofFin n % 16)] = true := by decide +kernel
  unfold escape validEncoded
  rw [List.all_flatMap, List.all_eq_true]
  intro c _
  split_ifs with hc
  · exact hhex c.toFin
  · rw [List.all_cons, List.all_nil, Bool.and_true, Bool.or_eq_true]
    exact Or.inr (by rw [Bool.eq_false_iff.2 hc]; rfl)

/-- A path is written as it was read, unless it has a byte that has to be escaped. -/
theorem escapedPath_eq_iff {u u' : URL} {p : Bytes} (hp : p.head? = some (byte '/'))
    (h : u.setPath p = some u') : u'.escapedPath = p ↔ validEncoded p = true := by
  obtain ⟨path, hpath, rfl⟩ := setPath_eq h
  obtain ⟨t, rfl, t', rfl⟩ := unescape_slash hp hpath
  have hstar : byte '/' :: t' ≠ ascii "*" := by
    intro he
    cases (List.cons.inj he).1
  unfold escapedPath
  dsimp only
  by_cases hescape : escape (byte '/' :: t') .path = byte '/' :: t
  · rw [if_pos hescape, if_neg fun hh => hh.1 rfl, if_neg hstar]
    exact iff_of_true hescape (hescape ▸ validEncoded_escape _)
  · rw [if_neg hescape]
    by_cases hvalid : validEncoded (byte '/' :: t) = true
    · rw [if_pos ⟨List.cons_ne_nil _ _, hvalid, hpath⟩]
      exact iff_of_true rfl hvalid
    · rw [if_neg fun hh => hvalid hh.2.1, if_neg hstar]
      exact iff_of_false hescape hvalid

/-- What is written for a path begins with a slash. -/
theorem head_requestURI {u : URL} (h : u.Parsed) (hnone : u.opaqueData = [])
    (hstar : u.path ≠ ascii "*") : u.requestURI.head? = some (byte '/') := by
  unfold requestURI
  rw [if_pos hnone]
  rcases h.path with hpath | hpath | ⟨t, hpath⟩
  · have hempty : u.escapedPath = [] ∨ u.escapedPath.head? = some (byte '/') := by
      unfold escapedPath
      rw [hpath]
      split_ifs with hraw hno
      · obtain ⟨hne, -⟩ := hraw
        obtain ⟨t, ht⟩ := h.rawPath.resolve_left hne
        exact Or.inr (by rw [ht]; rfl)
      · cases hno
      · exact Or.inl rfl
    rcases hempty with hnil | hhead
    · rw [if_pos hnil]
      rfl
    · rw [if_neg fun hnil => by rw [hnil] at hhead; cases hhead]
      rw [List.head?_append, hhead]
      rfl
  · exact absurd hpath hstar
  · obtain ⟨e, he, -⟩ := escapedPath_cons h hpath
    rw [he, if_neg (List.cons_ne_nil _ _)]
    rfl

theorem slash_ne_scheme {scheme rest : Bytes} (h : IsScheme scheme) :
    (scheme ++ byte ':' :: rest).head? ≠ some (byte '/') := by
  obtain ⟨⟨c, s, rfl, hc⟩, -⟩ := h
  intro hhead
  rw [Option.some.inj hhead] at hc
  exact absurd hc (by decide)

/-- What begins with a scheme is not written again. -/
theorem not_kept_of_scheme {scheme rest : Bytes} (h : IsScheme scheme) :
    ¬Kept (scheme ++ byte ':' :: rest) := by
  rintro (hstar | ⟨hhead, -⟩)
  · obtain ⟨⟨c, s, rfl, hc⟩, -⟩ := h
    have he : c = byte '*' := (List.cons.inj hstar).1
    rw [he] at hc
    exact absurd hc (by decide)
  · exact slash_ne_scheme h hhead

/-- **Targets.** What is written of a target is the target exactly if it is the asterisk, or a path
that needs no more escapes, with or without a query. -/
theorem Reads.requestURI_eq_iff {target : Bytes} {u : URL} (h : Reads target u) :
    u.requestURI = target ↔ Kept target := by
  have hparsed := h.parsed
  cases h with
  | asterisk => exact iff_of_true rfl (Or.inl rfl)
  | relative hhead hpath =>
    have hp : (beforeQuery target).head? = some (byte '/') := by
      unfold beforeQuery
      rw [List.head?_takeWhile, hhead]
      rfl
    have hiff := escapedPath_eq_iff hp hpath
    obtain ⟨path, hunescape, rfl⟩ := setPath_eq hpath
    obtain ⟨t, -, t', rfl⟩ := unescape_slash hp hunescape
    obtain ⟨e, he, -⟩ := escapedPath_cons hparsed rfl
    have hne : target ≠ ascii "*" := by
      rintro rfl
      cases hhead
    unfold requestURI Kept
    rw [if_pos rfl, if_neg (by rw [he]; exact List.cons_ne_nil _ _), ← hiff, or_iff_right hne,
      and_iff_right hhead]
    exact ⟨fun heq => List.append_cancel_right (heq.trans (beforeQuery_append rfl rfl).symm),
      fun heq => (congrArg (· ++ query _) heq).trans (beforeQuery_append rfl rfl)⟩
  | @rootless scheme rest hscheme hhead =>
    refine iff_of_false (fun heq => ?_) (not_kept_of_scheme hscheme)
    by_cases hempty : beforeQuery rest = []
    · have hslash := head_requestURI hparsed hempty nofun
      rw [heq] at hslash
      exact slash_ne_scheme hscheme hslash
    · -- without its scheme it is shorter
      have hno : ¬ascii "//" <+: beforeQuery rest := by
        rintro ⟨t, ht⟩
        rw [← ht] at hhead
        exact hhead rfl
      unfold requestURI at heq
      rw [if_neg hempty, if_neg hno, beforeQuery_append rfl rfl] at heq
      have hlength := congrArg List.length heq
      rw [List.length_append, List.length_cons] at hlength
      omega
  | absolute hscheme hp homit hpath =>
    refine iff_of_false (fun heq => ?_) (not_kept_of_scheme hscheme)
    obtain ⟨path, hunescape, rfl⟩ := setPath_eq hpath
    have hstar : path ≠ ascii "*" := by
      rintro rfl
      rcases hp with rfl | hp
      · cases hunescape
      · obtain ⟨t, -, t', ht'⟩ := unescape_slash hp hunescape
        cases (List.cons.inj ht').1
    have hslash := head_requestURI hparsed rfl hstar
    rw [heq] at hslash
    exact slash_ne_scheme hscheme hslash

theorem Reads.host_eq_nil {target : Bytes} {u : URL} (h : Reads target u) (hkept : Kept target) :
    u.host = [] := by
  cases h with
  | asterisk => rfl
  | relative hhead hpath =>
    obtain ⟨path, -, rfl⟩ := setPath_eq hpath
    rfl
  | rootless hscheme | absolute hscheme => exact absurd hkept (not_kept_of_scheme hscheme)

end URL
