import AutomaticCache.Proxy.Coherence

/-!
# Authorization

The proxy sends a request's headers on to the origin, and reads none of them itself: the key of a
request has its host, path and query, and what a hit serves is decided by the key alone. So the
origin decides about every request that reaches it, and once it has answered one with an object,
about no other request with the same key as long as the entry is there.
-/

namespace AutomaticCache

open Bytes Runs

def Request.authorization (req : Request) : Option (List Bytes) :=
  req.header.lookup (ascii "Authorization")

namespace Proxy

section World

variable {Ω : Type} (respond : Ω → Request → Ω × Response)

/-- The origin answers a `GET` with 200 where it accepts the Authorization header for the target. -/
def Decides (accepts : Ω → Bytes → URL → Option (List Bytes) → Prop) : Prop :=
  ∀ ω req, req.method = methodGet →
    ((respond ω req).2.statusCode = statusOK ↔ accepts ω req.host req.url req.authorization)

/-- Every hit is for a request whose target and Authorization header the origin has accepted. -/
def World.HitsAuthorized (W : World Ω) : Prop :=
  ∀ (i : ℕ) (c : Client) (req : Request) (response : Response) (j : ℕ),
    W.proxy.clients[i]? = some c → c.request = some req →
    c.reply = some (.served response) → c.hit = some j →
    ∃ (n : ℕ) (ω : Ω) (req' : Request), W.log[n]? = some (ω, req') ∧
      (respond ω req').2.statusCode = statusOK ∧ req'.host = req.host ∧ req'.url = req.url ∧
        req'.authorization = req.authorization

def Reply.statusCode : Reply → ℕ
  | .unavailable => 503
  | .served response => response.statusCode
  | .relayed res => res.statusCode

/-- The origin has accepted the client's own Authorization, and the reply is its answer. -/
def World.Accepted (accepts : Ω → Bytes → URL → Option (List Bytes) → Prop)
    (W : World Ω) (i : ℕ) (req : Request) (reply : Reply) : Prop :=
  ∃ leg n ω, W.Served i leg n (respond ω req).2 ∧ W.log[n]? = some (ω, req) ∧
    accepts ω req.host req.url req.authorization ∧ reply.Shows (respond ω req).2

/-- The origin has accepted the Authorization of the client that filled the entry, whose request has
the key of this one, and the reply is its whole answer to that one. -/
def World.AcceptedFiller (accepts : Ω → Bytes → URL → Option (List Bytes) → Prop)
    (hosts : List Bytes) (W : World Ω) (j : ℕ) (req : Request) (reply : Reply) : Prop :=
  ∃ n ω req', W.Served j .fetch n (respond ω req').2 ∧ W.log[n]? = some (ω, req') ∧
    (shouldIntercept (minioAdapters hosts) req').isSome ∧
    MinioObjectStorageAdapter.extractObjectKey req' =
      MinioObjectStorageAdapter.extractObjectKey req ∧
    accepts ω req'.host req'.url req'.authorization ∧
    (respond ω req').2.Complete ∧ reply.Shows (respond ω req').2

variable {respond} {accepts : Ω → Bytes → URL → Option (List Bytes) → Prop}

theorem Reply.Shows.statusCode_eq {res : Response} {reply : Reply} (h : reply.Shows res) :
    reply.statusCode = res.statusCode := by
  cases reply with
  | unavailable => exact h.elim
  | served response => exact h.1
  | relayed res' =>
    obtain ⟨cut, rfl⟩ := h
    cases cut <;> rfl

theorem method_of_shouldIntercept {hosts : List Bytes} {req : Request}
    (h : (shouldIntercept (minioAdapters hosts) req).isSome) : req.method = methodGet := by
  obtain ⟨adapter, ha⟩ := Option.isSome_iff_exists.1 h
  obtain ⟨host, -, rfl⟩ := List.mem_map.1 (List.mem_of_find?_eq_some ha)
  have hi : (MinioObjectStorageAdapter.toObjectStorage ⟨host⟩).shouldIntercept req = true := by
    simpa only using List.find?_some ha
  exact (MinioObjectStorageAdapter.shouldIntercept_iff.1 hi).method

/-- **Authorization.** For every origin that decides by the Authorization header and in every run: a
client whose `GET` is answered with 200 gets the origin's answer to its own request, whose
Authorization the origin has accepted, or a hit, which is the origin's answer to a request with the
same key, whose Authorization it has accepted. -/
theorem accepted_or_hit (hosts : List Bytes) (respond : Ω → Request → Ω × Response)
    (accepts : Ω → Bytes → URL → Option (List Bytes) → Prop)
    (hdecides : Decides respond accepts) (origin : Ω) (W : World Ω)
    (hW : (world (minioAdapters hosts) respond origin).Reachable W) (i : ℕ) (c : Client)
    (req : Request) (reply : Reply) (hc : W.proxy.clients[i]? = some c)
    (hreq : c.request = some req) (hget : req.method = methodGet) (hreply : c.reply = some reply)
    (hok : reply.statusCode = statusOK) :
    W.Accepted respond accepts i req reply ∨
    ∃ j, c.hit = some j ∧ W.AcceptedFiller respond accepts hosts j req reply := by
  have h := World.ok_of_reachable hW
  have haccepts {ω : Ω} (hshows : reply.Shows (respond ω req).2) :
      accepts ω req.host req.url req.authorization :=
    (hdecides ω req hget).1 (hshows.statusCode_eq.symm.trans hok)
  cases reply with
  | unavailable => cases hok
  | served response =>
    rcases h.served_from hc hreq hreply with
      ⟨n, ω, hserved, hlog, hshows⟩ | ⟨j, n, ω, req', hj, hserved, hlog, hi, hkey,
        hcomplete, hshows⟩
    · exact Or.inl ⟨.fetch, n, ω, hserved, hlog, haccepts hshows, hshows⟩
    · have haccepts' := (hdecides ω req' (method_of_shouldIntercept hi)).1 hcomplete.1
      exact Or.inr ⟨j, hj, n, ω, req', hserved, hlog, hi, hkey, haccepts', hcomplete, hshows⟩
  | relayed sent =>
    obtain ⟨n, ω, hserved, hlog, hshows⟩ := h.relayed_from hc hreq hreply
    exact Or.inl ⟨.forward, n, ω, hserved, hlog, haccepts hshows, hshows⟩

end World

/-- An origin that gives its object to Alice. -/
def guarded (ω : Unit) (req : Request) : Unit × Response :=
  (ω, if req.authorization = some [ascii "Bearer alice"] then okResponse [1]
    else { okResponse [] with status := ascii "403 Forbidden", statusCode := 403 })

theorem guarded_decides :
    Decides guarded fun _ _ _ authorization => authorization = some [ascii "Bearer alice"] := by
  intro ω req _
  unfold guarded
  split_ifs with h
  · exact iff_of_true rfl h
  · exact iff_of_false (by decide : (403 : ℕ) ≠ 200) h

/-- `GET /bucket/object` by Alice. -/
def getObjectAlice : Request :=
  { getObject with header := (∅ : Header).insert (ascii "Authorization") [ascii "Bearer alice"] }

/-- Alice misses, and is answered with the object. -/
theorem accepted_or_hit_alice :
    ∃ W c reply, (world (minioAdapters lima) guarded ()).run
      (world (minioAdapters lima) guarded ()).init
        (missActs 0 0 ⟨0x0a000001, 9000⟩ getObjectAlice) = some W ∧
      W.proxy.clients[0]? = some c ∧ c.reply = some reply ∧
      (W.Accepted guarded (fun _ _ _ authorization => authorization = some [ascii "Bearer alice"]) 0
          getObjectAlice reply ∨
        ∃ j, c.hit = some j ∧ W.AcceptedFiller guarded
          (fun _ _ _ authorization => authorization = some [ascii "Bearer alice"]) lima j
          getObjectAlice reply) :=
  ⟨_, _, _, rfl, rfl, rfl, accepted_or_hit lima guarded _ guarded_decides () _
    ⟨missActs 0 0 ⟨0x0a000001, 9000⟩ getObjectAlice, rfl⟩ 0 _ getObjectAlice _ rfl
      rfl rfl rfl rfl⟩

/-- The second client has no Authorization, and is served what was fetched for Alice. -/
theorem not_hitsAuthorized :
    ∃ W c, (world (minioAdapters lima) guarded ()).run
      (world (minioAdapters lima) guarded ()).init
        (missActs 0 0 ⟨0x0a000001, 9000⟩ getObjectAlice ++
          (hitRun 1 ⟨0x0a000001, 9000⟩ getObject).map .proxy) = some W ∧
      W.proxy.clients[1]? = some c ∧ c.request = some getObject ∧
      (guarded () getObject).2.statusCode = 403 ∧
      c.reply = some (.served { okResponse [1] with status := [] }) ∧
        ¬W.HitsAuthorized guarded := by
  refine ⟨_, _, rfl, rfl, rfl, rfl, rfl, fun h => ?_⟩
  obtain ⟨n, ω, req', hlog, -, -, -, hauth⟩ := h 1 _ getObject _ 0 rfl rfl rfl rfl
  have hlog : [((), getObjectAlice)][n]? = some (ω, req') := hlog
  cases n with
  | zero =>
    cases hlog
    cases hauth
  | succ n => cases hlog

end Proxy

end AutomaticCache
