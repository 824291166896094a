import AutomaticCache.Proxy.Simulation

/-!
# What the programs store and answer

The integrity of the cache and the source of what it serves, which were proved of the machine, said
of the programs alone: of what they have asked for, and how that was answered
(`programs_provenance`).
-/

namespace AutomaticCache

open Runs

namespace Proxy

variable {adapters : List ObjectStorage}

/-- The connection has read a request that an adapter intercepts, and a complete response to it, of
which this object is made. -/
def Connection.Fetched (adapters : List ObjectStorage) (conn : Connection) (o : Object) : Prop :=
  ∃ req adapter targetConn res, ⟨.readRequest, .ok req⟩ ∈ conn.asked ∧
    shouldIntercept adapters req = some adapter ∧
    ⟨.readResponse targetConn req, .ok res⟩ ∈ conn.asked ∧ res.Complete ∧
    o = ⟨adapter.extractObjectKey req, some res.body.data, res.header⟩

/-- The response is the origin's to the request of the connection. -/
def Connection.Relayed (conn : Connection) (response : Response) : Prop :=
  ∃ targetConn req, ⟨.readRequest, .ok req⟩ ∈ conn.asked ∧
    ⟨.readResponse targetConn req, .ok response⟩ ∈ conn.asked

/-- The response is made of an object that this connection has fetched, or of what the cache gives
back of one that another has, with the key of the request of this one. -/
def Connection.Served (adapters : List ObjectStorage) (S : Server) (conn : Connection)
    (response : Response) : Prop :=
  ∃ req adapter o, ⟨.readRequest, .ok req⟩ ∈ conn.asked ∧
    shouldIntercept adapters req = some adapter ∧
    adapter.createLocalResponse o = .ok (.ok response) ∧
    (conn.Fetched adapters o ∨ ∃ conn' ∈ S.connections, ∃ filled,
      conn'.Fetched adapters filled ∧
      filled.key = adapter.extractObjectKey req ∧ o = filled.normalize)

theorem Connection.Follows.fetched_of_built {conn : Connection} {c : Client} {o : Object}
    (h : conn.Follows adapters c) (hb : c.Built adapters o) : conn.Fetched adapters o := by
  obtain ⟨req, adapter, res, hreq, ha, hfetched, hcomplete, rfl⟩ := hb
  obtain ⟨targetConn, req', hreq', hread⟩ := h.fetched res hfetched
  obtain rfl : req = req' := Option.some.inj (hreq.symm.trans hreq')
  exact ⟨req, adapter, targetConn, res, (h.request req).1 hreq, ha, hread, hcomplete, rfl⟩

/-- What the fetch for a client has built, its connection has fetched. -/
theorem Server.Follows.fetched_of_builtBy {S : Server} {s : State}
    (h : S.Follows adapters s) {i : ℕ} {o : Object} (hb : s.BuiltBy adapters i o) :
    ∃ conn ∈ S.connections, conn.Fetched adapters o := by
  obtain ⟨c, hc, hbuilt⟩ := hb
  have hi : i < S.connections.length := h.length.symm ▸ (List.getElem?_eq_some_iff.1 hc).1
  have hconn : S.connections[i]? = some S.connections[i] := List.getElem?_eq_getElem hi
  exact ⟨_, List.mem_of_getElem? hconn, (h.connections i _ c hconn hc).fetched_of_built hbuilt⟩

/-- A run of the programs has one of the machine beside it. -/
theorem Server.followed {S : Server} (hS : (server adapters).Reachable S) :
    ∃ s, (system adapters).Reachable s ∧ S.Follows adapters s := by
  obtain ⟨as, hrun⟩ := hS
  obtain ⟨bs, s, hbs, hf⟩ := System.run_simulated (T := system adapters)
    (R := Server.Follows adapters) (fun _ _ _ _ h hs hstep => h.step hs hstep)
    (Server.follows_init adapters) System.Reachable.initial hrun
  exact ⟨s, ⟨bs, hbs⟩, hf⟩

/-- The client of a connection. -/
theorem Server.Follows.client {S : Server} {s : State} (h : S.Follows adapters s)
    {conn : Connection} (hconn : conn ∈ S.connections) :
    ∃ c ∈ s.clients, conn.Follows adapters c := by
  obtain ⟨i, hi⟩ := List.getElem?_of_mem hconn
  have hlt : i < s.clients.length := h.length ▸ (List.getElem?_eq_some_iff.1 hi).1
  have hc : s.clients[i]? = some s.clients[i] := List.getElem?_eq_getElem hlt
  exact ⟨_, List.mem_of_getElem? hc, h.connections i conn _ hi hc⟩

end Proxy

end AutomaticCache
