import AutomaticCache.Proxy.Agreement

/-!
# Interim responses

An origin may send interim responses before the final one. `http.ReadResponse` returns whatever
comes next, and `forward` and `forwardTimed` call it once. So they relay the final response exactly
if nothing comes before it (`forward_relays_final_iff`).
-/

namespace AutomaticCache

/-- A response that another one follows: its status is 1xx, and it has no body. -/
structure Response.Interim (res : Response) : Prop where
  le : 100 ≤ res.statusCode
  lt : res.statusCode < 200
  body : res.body = ⟨[], none⟩

namespace Proxy

open Bytes Clock

/-- A world `env`, with what the origin has still to say, and what the client got. -/
structure Relayed (ω : Type) where
  stream : List Response
  delivered : List Response
  closed : Bool
  env : ω

/-- `net.ErrClosed`. -/
def errClosed : GoError := .new "use of closed network connection"

/-- `http.ReadResponse` takes the next response from the stream. The client takes what it is sent,
until its connection is closed. -/
def streamWorld {ω : Type} (env : (i : ProxyOp) → ω → i.Ans × ω) :
    (i : ProxyOp) → Relayed ω → i.Ans × Relayed ω
  | .readResponse _ _, s =>
    match s.stream with
    | [] => (.error errUnexpectedEOF, s)
    | res :: stream => (.ok res, { s with stream := stream })
  | .respond res, s =>
    if s.closed then (some errClosed, s) else (none, { s with delivered := s.delivered ++ [res] })
  | .close, s => ((), { s with closed := true, env := (env .close s.env).2 })
  | i, s => ((env i s.env).1, { s with env := (env i s.env).2 })

section forward

variable {ω χ : Type} (env : (i : ProxyOp) → ω → i.Ans × ω) (tick : χ → ℤ × χ)
    (targetAddr : Addr)
  (request : Request)

/-- From `s` on, the last that the client got is `res`, and its connection is open still. -/
def Delivers (res : Response) (s s' : Relayed ω) : Prop :=
  (∃ earlier, s'.delivered = s.delivered ++ (earlier ++ [res])) ∧ s'.closed = false

variable {env targetAddr}

/-- The next response is relayed, whichever it is, and nothing else. -/
theorem forward_next {s : Relayed ω} {res : Response} {stream : List Response}
    (hopen : s.closed = false) (hstream : s.stream = res :: stream)
    (hdial : ∃ targetConn, (env (.dial targetAddr) s.env).1 = .ok targetConn) :
    ((forward ask targetAddr request).exec (streamWorld env) s).2.delivered =
    s.delivered ++ [res] ∧
      ((forward ask targetAddr request).exec (streamWorld env) s).2.closed = false := by
  obtain ⟨targetConn, hdial⟩ := hdial
  have hdialed : (ask (.dial targetAddr)).exec (streamWorld env) s =
      (.ok targetConn, { s with env := (env (.dial targetAddr) s.env).2 }) := Prod.ext hdial rfl
  have hwrite (w : ω) : (ask (.writeRequest targetConn request)).exec (streamWorld env)
      { s with env := w } = ((env (.writeRequest targetConn request) w).1,
        { s with env := (env (.writeRequest targetConn request) w).2 }) := rfl
  have hread (w : ω) : (ask (.readResponse targetConn request)).exec (streamWorld env)
      { s with env := w } =
      (.ok res, { s with stream := stream, env := w }) := by
    dsimp only [ask, Prog.exec, streamWorld]
    rw [hstream]
  have hrespond (w : ω) : (ask (.respond res)).exec (streamWorld env)
      { s with stream := stream, env := w } =
        (none, { s with stream := stream, delivered := s.delivered ++ [res], env := w }) := by
    dsimp only [ask, Prog.exec, streamWorld]
    rw [hopen]
    rfl
  unfold forward
  rw [Prog.exec_bind, hdialed]
  dsimp only
  rw [Prog.exec_bind, hwrite]
  dsimp only
  rw [Prog.exec_bind, hread]
  dsimp only
  rw [Prog.exec_bind, hrespond]
  exact ⟨rfl, hopen⟩

variable (interims : List Response) (final : Response)

theorem forward_delivers_iff {s : Relayed ω} (hopen : s.closed = false)
    (hstream : s.stream = interims ++ [final]) (hinterims : ∀ res ∈ interims, res.Interim)
    (hfinal : ¬final.Interim)
    (hdial : ∃ targetConn, (env (.dial targetAddr) s.env).1 = .ok targetConn) :
    Delivers final s ((forward ask targetAddr request).exec (streamWorld env) s).2 ↔
    interims = [] := by
  cases interims with
  | nil =>
    obtain ⟨hdelivered, hopen'⟩ := forward_next request hopen hstream hdial
    exact iff_of_true ⟨⟨[], hdelivered⟩, hopen'⟩ rfl
  | cons res rest =>
    refine iff_of_false (fun h => ?_) (List.cons_ne_nil _ _)
    obtain ⟨⟨earlier, hearlier⟩, -⟩ := h
    have hnext := (forward_next request hopen hstream hdial).1.symm.trans hearlier
    have hsame : [] ++ [res] = earlier ++ [final] := List.append_cancel_left hnext
    have hres : res = final := List.singleton_inj.1 (List.append_inj_right' hsame rfl)
    exact hfinal (hres ▸ hinterims res List.mem_cons_self)

/-- **Interim responses.** Whatever the client was sent before, and whatever the clock shows. -/
theorem forward_relays_final_iff (env : (i : ProxyOp) → ω → i.Ans × ω)
    (tick : χ → ℤ × χ) (targetAddr : Addr) (request : Request) (interims : List Response)
    (final : Response) (s : Relayed ω) (stats : ProxyStatsEntry) (clock : χ)
    (hopen : s.closed = false) (hstream : s.stream = interims ++ [final])
    (hinterims : ∀ res ∈ interims, res.Interim) (hfinal : ¬final.Interim)
    (hdial : ∃ targetConn, (env (.dial targetAddr) s.env).1 = .ok targetConn) :
    let forwarded := (forward ask targetAddr request).exec (streamWorld env) s
    let forwardedTimed := ((forwardTimed askTimed now targetAddr request).run stats).exec
      (clocked (streamWorld env) tick) (s, clock)
    (Delivers final s forwarded.2 ↔ interims = []) ∧
      (Delivers final s forwardedTimed.2.1 ↔ interims = []) := by
  have hiff := forward_delivers_iff request interims final hopen hstream hinterims hfinal hdial
  have herases := (forwardTimed_erases targetAddr request).run stats
  refine ⟨hiff, ?_⟩
  rw [(herases.exec (streamWorld env) tick s clock).2]
  exact hiff

end forward

def continueResponse : Response :=
  { okResponse [] with status := ascii "100 Continue", statusCode := 100, contentLength := 0 }

theorem interim_continueResponse : continueResponse.Interim := ⟨by decide, by decide, rfl⟩

theorem not_interim_okResponse (body : Bytes) : ¬(okResponse body).Interim :=
  fun h => absurd h.lt (by show ¬200 < 200; decide)

/-- An upload with `Expect: 100-continue`. -/
def uploadObject : Request :=
  { getObject with method := ascii "PUT", body := ascii "x" }

/-- Before the origin has answered. -/
def uploading : Relayed Unit := ⟨[continueResponse, okResponse []], [], false, ()⟩

theorem forward_relays_final_uploading :
    let forwarded :=
      (forward ask ⟨0x0a000001, 9000⟩ uploadObject).exec (streamWorld missWorld) uploading
    let forwardedTimed :=
      ((forwardTimed askTimed now ⟨0x0a000001, 9000⟩ uploadObject).run .zero).exec
      (clocked (streamWorld missWorld) ticking) (uploading, 0)
    (Delivers (okResponse []) uploading forwarded.2 ↔ [continueResponse] = []) ∧
      (Delivers (okResponse []) uploading forwardedTimed.2.1 ↔ [continueResponse] = []) :=
  forward_relays_final_iff missWorld ticking ⟨0x0a000001, 9000⟩ uploadObject [continueResponse]
    (okResponse []) uploading .zero 0 rfl rfl (List.forall_mem_singleton.2 interim_continueResponse)
    (not_interim_okResponse []) ⟨3, rfl⟩

/-- The client gets the interim response for the final one. -/
theorem forward_relays_interim : ¬ ∀ (ω χ : Type) (env : (i : ProxyOp) → ω → i.Ans × ω)
    (tick : χ → ℤ × χ) (targetAddr : Addr) (request : Request) (interims : List Response)
    (final : Response) (s : Relayed ω) (stats : ProxyStatsEntry) (clock : χ), s.closed = false →
      s.stream = interims ++ [final] → (∀ res ∈ interims, res.Interim) → ¬final.Interim →
      (∃ targetConn, (env (.dial targetAddr) s.env).1 = .ok targetConn) →
        Delivers final s ((forward ask targetAddr request).exec (streamWorld env) s).2 ∧
          Delivers final s (((forwardTimed askTimed now targetAddr request).run stats).exec
            (clocked (streamWorld env) tick) (s, clock)).2.1 := by
  intro h
  have hdelivers := h Unit ℤ missWorld ticking ⟨0x0a000001, 9000⟩ uploadObject
    [continueResponse] (okResponse []) uploading .zero 0 rfl rfl
    (List.forall_mem_singleton.2 interim_continueResponse) (not_interim_okResponse []) ⟨3, rfl⟩
  refine List.cons_ne_nil _ _ ((forward_delivers_iff uploadObject [continueResponse] (okResponse [])
    rfl rfl ?_ ?_ ?_).1 hdelivers.1)
  · exact List.forall_mem_singleton.2 interim_continueResponse
  · exact not_interim_okResponse []
  · exact ⟨3, rfl⟩

end Proxy

end AutomaticCache
