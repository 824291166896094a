import AutomaticCache.Proxy.Stages

/-!
# The programs refine the machine

What was proved of the clients of `system` is true of the programs of `server`. A step of a handler
or of its goroutine is answered by steps of the client that stands for its connection, so that every
run of the programs has one of the machine beside it, with the same cache and the same pending puts,
whose clients have read and were answered what the connections were (`handlers_refine`).
-/

namespace AutomaticCache

open Runs Goroutines

namespace Proxy

variable {adapters : List ObjectStorage} {store : Store}

/-- What is left of the handler and its goroutines is what the client stands for, and of what they
asked for, what was read and what the connection was answered with are what the client says. -/
structure Connection.Follows (adapters : List ObjectStorage) (conn : Connection) (c : Client) :
    Prop where
  targetAddr : c.targetAddr = conn.targetAddr
  rest : ∃ p, Behaves Retrieval.goroutine conn.main conn.goroutines p ∧ c.Stage adapters p
  request : ∀ req, c.request = some req ↔ ⟨.readRequest, .ok req⟩ ∈ conn.asked
  fetched : ∀ res, c.fetched = some res → ∃ targetConn req, c.request = some req ∧
    ⟨.readResponse targetConn req, .ok res⟩ ∈ conn.asked
  responds : ∀ response, ⟨.respond response, none⟩ ∈ conn.asked →
    c.reply = some (.served response) ∨ c.reply = some (.relayed response)
  writes : ∀ b r, ⟨.write b, r⟩ ∈ conn.asked → b = serviceUnavailable ∧
    c.reply = some .unavailable
  relays : ∀ res, c.reply = some (.relayed res) → ∃ targetConn req, c.request = some req ∧
    ⟨.readResponse targetConn req, .ok res⟩ ∈ conn.asked

/-- The same cache, the same pending puts, and a client for each connection. -/
structure Server.Follows (adapters : List ObjectStorage) (S : Server) (s : State) : Prop where
  store : ∀ key, S.shared.store.lookup key = (s.store.lookup key).map Entry.data
  puts : S.shared.puts = s.puts.map PendingPut.object
  length : S.connections.length = s.clients.length
  connections : ∀ (i : ℕ) (conn : Connection) (c : Client), S.connections[i]? = some conn →
    s.clients[i]? = some c → conn.Follows adapters c
  panic : S.connections.any Connection.panicked = s.panic.isSome

theorem Connection.follows_accepted (adapters : List ObjectStorage) (targetAddr : Addr) :
    (accepted adapters targetAddr).Follows adapters (.accepted targetAddr) where
  targetAddr := rfl
  rest := by
    have hm := handleWith_behavesAs (get_behavesAs .bigcache) adapters targetAddr
    have hb := hm.behaves .ret .ret (fun a gs hgs => .ret a hgs) [] ended_nil
    rw [Prog.bind_ret, Prog.bind_ret] at hb
    exact ⟨_, hb, .readRequest rfl (reads_eq adapters targetAddr)⟩
  request := fun req => ⟨fun h => (nomatch h), fun h => absurd h List.not_mem_nil⟩
  fetched := fun res h => nomatch h
  responds := fun response h => absurd h List.not_mem_nil
  writes := fun b r h => absurd h List.not_mem_nil
  relays := fun res h => nomatch h

/-- One more operation. -/
theorem Connection.Follows.after {conn conn' : Connection} {c c' : Client}
    {e : Σ i : ProxyOp, i.Ans} (h : conn.Follows adapters c) (ha : c.After c' e)
    (htarget : conn'.targetAddr = conn.targetAddr) (hasked : conn'.asked = conn.asked ++ [e])
    (hrest : ∃ p, Behaves Retrieval.goroutine conn'.main conn'.goroutines p ∧
      c'.Stage adapters p) :
    conn'.Follows adapters c' where
  targetAddr := by rw [ha.targetAddr, h.targetAddr, htarget]
  rest := hrest
  request := fun req => by
    rw [ha.request, h.request, hasked, List.mem_append, List.mem_singleton, eq_comm (a := e)]
  fetched := fun res hres => by
    rw [hasked]
    rcases ha.fetched res hres with hold | ⟨targetConn, req, hreq, rfl⟩
    · obtain ⟨targetConn, req, hreq, hmem⟩ := h.fetched res hold
      exact ⟨targetConn, req, (ha.request req).2 (Or.inl hreq), List.mem_append_left _ hmem⟩
    · exact ⟨targetConn, req, (ha.request req).2 (Or.inl hreq),
        List.mem_append_right _ List.mem_cons_self⟩
  responds := fun response hmem => by
    rw [hasked] at hmem
    rcases List.mem_append.1 hmem with hmem | hmem
    · exact (h.responds response hmem).imp (ha.reply _) (ha.reply _)
    · exact ha.responds response (List.mem_singleton.1 hmem).symm
  writes := fun b r hmem => by
    rw [hasked] at hmem
    rcases List.mem_append.1 hmem with hmem | hmem
    · exact ⟨(h.writes b r hmem).1, ha.reply _ (h.writes b r hmem).2⟩
    · exact ha.writes b r (List.mem_singleton.1 hmem).symm
  relays := fun res hres => by
    rw [hasked]
    rcases ha.relays res hres with hold | ⟨targetConn, req, hreq, rfl⟩
    · obtain ⟨targetConn, req, hreq, hmem⟩ := h.relays res hold
      exact ⟨targetConn, req, (ha.request req).2 (Or.inl hreq), List.mem_append_left _ hmem⟩
    · exact ⟨targetConn, req, (ha.request req).2 (Or.inl hreq),
        List.mem_append_right _ List.mem_cons_self⟩

/-- The steps of a client are steps of the machine. -/
theorem Client.Moves.run {c c' : Client} {es : List Event} {os : List Object}
    (h : c.Moves adapters store es c' os) {s : State} {i : ℕ} (hstore : s.store = store)
    (hc : s.clients[i]? = some c) (hp : s.panic = none) :
    (system adapters).run s (es.map (.client i)) =
      some ⟨s.store, s.puts ++ os.map fun o => ⟨o, i⟩, s.clients.set i c', none⟩ := by
  induction h generalizing s with
  | nil c =>
    obtain ⟨hlt, hget⟩ := List.getElem?_eq_some_iff.1 hc
    obtain ⟨store, puts, clients, panic⟩ := s
    obtain rfl : panic = none := hp
    rw [List.map_nil, List.map_nil, List.append_nil, System.run_nil, ← hget,
      List.set_getElem_self]
  | @cons c c' c'' e es put os hnext hm ih =>
    have hlt := (List.getElem?_eq_some_iff.1 hc).1
    have hstep : (system adapters).step s (.client i e) = some (s.after i ⟨c', put, none⟩) := by
      show Proxy.step adapters s (.client i e) = _
      simp only [Proxy.step, hp, ne_eq, not_true_eq_false, if_false, hc,
        Option.bind_some, hstore, hnext,
        Option.map_some]
    rw [List.map_cons, System.run_cons_eq hstep,
      ih (s := s.after i ⟨c', put, none⟩) hstore (List.getElem?_set_self hlt) rfl]
    simp only [State.after, List.set_set, List.append_assoc, List.map_append, Option.toList_map]

/-- The two caches answer a lookup alike. -/
theorem Server.Follows.get_eq {S : Server} {s : State} (h : S.Follows adapters s) (key : Bytes) :
    BigcacheWrapper.get bigcacheBackend S.shared.store key =
      BigcacheWrapper.get (bigcache 0) s.store key := by
  unfold BigcacheWrapper.get bigcacheBackend mapBackend bigcache
  dsimp only
  rw [h.store key]
  cases s.store.lookup key <;> rfl

theorem Shared.answer_snd (oracle : (i : ProxyOp) → i.Ans) (i : ProxyOp) (w : Shared) :
    (Shared.answer oracle i w).2 = ⟨w.store, w.puts ++ i.goPuts⟩ := by
  cases i <;> simp only [Shared.answer, ProxyOp.goPuts, List.append_nil]

theorem Server.Follows.answered {S : Server} {s : State} (h : S.Follows adapters s)
    (oracle : (i : ProxyOp) → i.Ans) (i : ProxyOp) :
    AnsweredFrom s.store i (Shared.answer oracle i S.shared).1 := by
  cases i with
  | get key => exact h.get_eq key
  | _ => trivial

/-- A step of the goroutines of one connection is answered by steps of its client. -/
theorem Connection.Follows.step {S : Server} {s : State} (hS : S.Follows adapters s)
    (hs : (system adapters).Reachable s) {conn conn' : Connection} {c : Client}
    (h : conn.Follows adapters c) (hc : c ∈ s.clients)
    {oracle : (i : ProxyOp) → i.Ans} {w : Shared} {a : Goroutines.Act}
    (hstep : conn.step oracle S.shared a = some (w, conn')) :
    ∃ es c' os, c.Moves adapters s.store es c' os ∧ conn'.Follows adapters c' ∧
      w = ⟨S.shared.store, S.shared.puts ++ os⟩ := by
  obtain ⟨⟨main, goroutines, world⟩, hgo, he⟩ := Option.map_eq_some_iff.1 hstep
  obtain ⟨rfl, rfl⟩ := Prod.mk.inj he
  obtain ⟨p, hb, hstage⟩ := h.rest
  rcases hb.step hgo with ⟨hb', hw⟩ | ⟨i, next, rfl, hb', hw⟩
  · obtain rfl : world = (S.shared, conn.asked) := hw
    refine ⟨[], c, [], .nil c,
      ⟨h.targetAddr, ⟨p, hb', hstage⟩, h.request, h.fetched, h.responds,
      h.writes, h.relays⟩, ?_⟩
    rw [List.append_nil]
  · have hserves := allServe_of_reachable hs c hc
    obtain ⟨es, c', hm, hafter, hstage'⟩ := hstage.step ((filled_of_reachable hs).ok c hc)
      hserves.replied (hS.answered oracle i)
    have hw : world = ((Shared.answer oracle i S.shared).2,
      conn.asked ++ [⟨i, (Shared.answer oracle i S.shared).1⟩]) := hw
    rw [Shared.answer_snd] at hw
    obtain rfl := hw
    exact ⟨es, c', _, hm, h.after hafter rfl rfl ⟨_, hb', hstage'⟩, rfl⟩

theorem Server.follows_init (adapters : List ObjectStorage) :
    (server adapters).init.Follows adapters initial where
  store := fun key => by
    show (∅ : Finmap fun _ : Bytes => Gob.Message).lookup key =
      ((∅ : Store).lookup key).map Entry.data
    rw [Finmap.lookup_empty, Finmap.lookup_empty, Option.map_none]
  puts := rfl
  length := rfl
  connections := fun i conn c h => by
    have hnone : ([] : List Connection)[i]? = some conn := h
    cases hnone
  panic := rfl

theorem Connection.panicked_iff {conn : Connection} :
    conn.panicked = true ↔ ∃ panic, conn.main = .ret (.error panic) := by
  obtain ⟨targetAddr, main, goroutines, asked⟩ := conn
  unfold panicked
  cases main with
  | ret outcome =>
    cases outcome with
    | error panic => exact iff_of_true rfl ⟨panic, rfl⟩
    | ok result =>
      refine iff_of_false Bool.false_ne_true fun ⟨panic, h⟩ => ?_
      cases h
  | op i next =>
    refine iff_of_false Bool.false_ne_true fun ⟨panic, h⟩ => ?_
    cases h

/-- What becomes of a connection and of its client, and of the process where its handler has
panicked. -/
theorem Server.Follows.set {S : Server} {s : State} (h : S.Follows adapters s)
    (hp : s.panic = none) {i : ℕ} {conn : Connection} {c : Client} (os : List Object)
    (hi : i < s.clients.length) (hf : conn.Follows adapters c) :
    ∃ as s', (system adapters).run ⟨s.store, s.puts ++ os.map fun o => ⟨o, i⟩,
      s.clients.set i c, none⟩ as = some s' ∧
      Server.Follows adapters ⟨⟨S.shared.store, S.shared.puts ++ os⟩,
        S.connections.set i conn⟩ s' := by
  have hfollows (panic : Option Panic)
      (hpanic : (S.connections.set i conn).any Connection.panicked = panic.isSome) :
      Server.Follows adapters ⟨⟨S.shared.store, S.shared.puts ++ os⟩,
        S.connections.set i conn⟩
        ⟨s.store, s.puts ++ os.map fun o => ⟨o, i⟩, s.clients.set i c, panic⟩ := by
    refine ⟨h.store, ?_, ?_, fun j conn' c' hconn' hc' => ?_, hpanic⟩
    · rw [h.puts, List.map_append, List.map_map]
      refine congrArg _ (List.map_id os).symm
    · rw [List.length_set, List.length_set, h.length]
    · rcases getElem?_set_cases hconn' with ⟨rfl, rfl⟩ | ⟨hji, hconn'⟩
      · rcases getElem?_set_cases hc' with ⟨-, rfl⟩ | ⟨hjj, -⟩
        · exact hf
        · exact absurd rfl hjj
      · rcases getElem?_set_cases hc' with ⟨hj, -⟩ | ⟨-, hc'⟩
        · exact absurd hj hji
        · exact h.connections j conn' c' hconn' hc'
  have hquiet : S.connections.any Connection.panicked = false := by
    rw [h.panic, hp, Option.isSome_none]
  cases hpanicked : conn.panicked with
  | false =>
    refine ⟨[], _, System.run_nil _, hfollows none ?_⟩
    rw [Option.isSome_none, List.any_eq_false]
    intro conn' hconn'
    rcases List.mem_or_eq_of_mem_set hconn' with hmem | rfl
    · exact List.any_eq_false.1 hquiet conn' hmem
    · rw [hpanicked]
      exact Bool.false_ne_true
  | true =>
    obtain ⟨panic, hmain⟩ := Connection.panicked_iff.1 hpanicked
    obtain ⟨p, hb, hstage⟩ := hf.rest
    rw [hmain] at hb
    cases hb with
    | ret _ hgs =>
      have hself : (s.clients.set i c)[i]? = some c := List.getElem?_set_self hi
      have hstep : (system adapters).step
          ⟨s.store, s.puts ++ os.map fun o => ⟨o, i⟩, s.clients.set i c, none⟩
            (.client i .serve) =
            some ⟨s.store, s.puts ++ os.map fun o => ⟨o, i⟩, s.clients.set i c,
              some panic⟩ := by
        simp only [system, Proxy.step, ne_eq, not_true_eq_false, if_false, hself, Option.bind_some,
          hstage.panics_of_ret, Option.map_some, State.after, Option.map_none, Option.toList_none,
          List.append_nil, List.set_set]
      refine ⟨[.client i .serve], _, System.run_cons_eq hstep, hfollows (some panic) ?_⟩
      rw [Option.isSome_some, List.any_eq_true]
      have hlt : i < S.connections.length := h.length ▸ hi
      exact ⟨conn, List.mem_of_getElem? (List.getElem?_set_self hlt), hpanicked⟩

/-- Each step of the programs is answered by steps of the machine. -/
theorem Server.Follows.step {S S' : Server} {s : State} (h : S.Follows adapters s)
    (hs : (system adapters).Reachable s) {a : ServerAct} (hstep : S.step adapters a = some S') :
    ∃ as s', (system adapters).run s as = some s' ∧ S'.Follows adapters s' := by
  unfold Server.step at hstep
  split_ifs at hstep with hpanic
  have hp : s.panic = none := by
    rw [h.panic] at hpanic
    exact Option.not_isSome_iff_eq_none.1 hpanic
  cases a with
  | accept targetAddr =>
    cases hstep
    have haccept : (system adapters).step s (.accept targetAddr) =
        some { s with clients := s.clients ++ [.accepted targetAddr] } := by
      simp only [system, Proxy.step, hp, ne_eq, not_true_eq_false, if_false]
    refine ⟨[.accept targetAddr], _, System.run_cons_eq haccept, h.store, h.puts, ?_,
      fun i conn c hconn hc => ?_, ?_⟩
    · rw [List.length_append, List.length_append, h.length, List.length_singleton,
        List.length_singleton]
    · rcases getElem?_concat_cases hconn with hconn | ⟨rfl, rfl⟩
      · rcases getElem?_concat_cases hc with hc | ⟨rfl, -⟩
        · exact h.connections i conn c hconn hc
        · exact absurd (h.length ▸ (List.getElem?_eq_some_iff.1 hconn).1) (lt_irrefl _)
      · rcases getElem?_concat_cases hc with hc | ⟨-, rfl⟩
        · exact absurd (h.length ▸ (List.getElem?_eq_some_iff.1 hc).1) (lt_irrefl _)
        · exact Connection.follows_accepted adapters targetAddr
    · rw [List.any_append, h.panic]
      exact Bool.or_false _
  | run i oracle a =>
    obtain ⟨conn, hconn, hstep⟩ := Option.bind_eq_some_iff.1 hstep
    obtain ⟨⟨w, conn'⟩, hcstep, rfl⟩ := Option.map_eq_some_iff.1 hstep
    have hi : i < s.clients.length := h.length ▸ (List.getElem?_eq_some_iff.1 hconn).1
    have hc : s.clients[i]? = some s.clients[i] := List.getElem?_eq_getElem hi
    obtain ⟨es, c', os, hm, hf, rfl⟩ := (h.connections i conn _ hconn hc).step h hs
      (List.mem_of_getElem? hc) hcstep
    obtain ⟨as, s', hrun, hS'⟩ := h.set hp os hi hf
    refine ⟨es.map (.client i) ++ as, s', ?_, hS'⟩
    rw [System.run_append_eq _ (hm.run rfl hc hp)]
    exact hrun
  | put n =>
    obtain ⟨o, ho, hstep⟩ := Option.bind_eq_some_iff.1 hstep
    cases hstep
    obtain ⟨pending, hpending, rfl⟩ : ∃ pending, s.puts[n]? = some pending ∧
        pending.object = o := by
      rw [h.puts, List.getElem?_map] at ho
      exact Option.map_eq_some_iff.1 ho
    have hput : (system adapters).step s (.put n) = some { s with
        store := s.store.insert pending.object.key ⟨pending.object.encode, pending.filler⟩
        puts := s.puts.eraseIdx n } := by
      simp only [system, Proxy.step, hp, ne_eq, not_true_eq_false, if_false, hpending,
        Option.bind_some,
        put_bigcache]
    refine ⟨[.put n], _, System.run_cons_eq hput, fun key => ?_, ?_, h.length,
      h.connections, h.panic⟩
    · by_cases hkey : key = pending.object.key
      · subst hkey
        have hnew : (s.store.insert pending.object.key
            ⟨pending.object.encode, pending.filler⟩).lookup pending.object.key =
              some ⟨pending.object.encode, pending.filler⟩ := Finmap.lookup_insert _
        dsimp only
        rw [hnew]
        exact Finmap.lookup_insert _
      · refine (Finmap.lookup_insert_of_ne _ hkey).trans ((h.store key).trans ?_)
        exact congrArg _ (Finmap.lookup_insert_of_ne _ hkey).symm
    · dsimp only
      rw [h.puts, List.eraseIdx_map]
  | putFails n =>
    obtain ⟨o, ho, hstep⟩ := Option.bind_eq_some_iff.1 hstep
    cases hstep
    obtain ⟨pending, hpending, rfl⟩ : ∃ pending, s.puts[n]? = some pending ∧
        pending.object = o := by
      rw [h.puts, List.getElem?_map] at ho
      exact Option.map_eq_some_iff.1 ho
    have hput : (system adapters).step s (.putFails n) =
        some { s with puts := s.puts.eraseIdx n } := by
      simp only [system, Proxy.step, hp, ne_eq, not_true_eq_false, if_false, hpending,
        Option.bind_some]
    refine ⟨[.putFails n], _, System.run_cons_eq hput, h.store, ?_, h.length,
      h.connections, h.panic⟩
    dsimp only
    rw [h.puts, List.eraseIdx_map]
  | drop key =>
    cases hstep
    have hdrop : (system adapters).step s (.drop key) =
        some { s with store := s.store.erase key } := by
      simp only [system, Proxy.step, hp, ne_eq, not_true_eq_false, if_false]
    refine ⟨[.drop key], _, System.run_cons_eq hdrop, fun key' => ?_, h.puts,
      h.length, h.connections,
      h.panic⟩
    by_cases hkey : key' = key
    · subst hkey
      dsimp only
      rw [Finmap.lookup_erase, Finmap.lookup_erase, Option.map_none]
    · refine (Finmap.lookup_erase_ne hkey).trans ((h.store key').trans ?_)
      exact congrArg _ (Finmap.lookup_erase_ne hkey).symm

/-- A network that brings the request and the response, and takes everything. -/
def brings (req : Request) (res : Response) : (i : ProxyOp) → i.Ans
  | .readRequest => .ok req
  | .write _ | .respond _ | .writeRequest _ _ => none
  | .close | .goPut _ => ()
  | .dial _ => .ok 0
  | .readResponse _ _ => .ok res
  | .get _ => .error BigcacheWrapper.errEntryNotFound
  | .put _ => .ok ()

/-- The `n`-th connection misses, what its goroutine fetches is served, and then stored. -/
def missSchedule (n : ℕ) (addr : Addr) (req : Request) (res : Response) : List ServerAct :=
  .accept addr :: [.main, .main, .main, .main, .goroutine 0, .goroutine 0, .goroutine 0,
    .recv 0, .recv 0,
    .main, .main, .main].map (.run n (brings req res)) ++ [.put 0]

end Proxy

end AutomaticCache
