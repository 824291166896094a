import AutomaticCache.Cache.LostUpdate
import AutomaticCache.Lib.CacheAside.Sequential

/-!
# The caches as a map that fills itself

A single caller of `MemcachedClient` or `DummyPrinterCache` cannot tell it from a finite map with
cache-aside fill. `BigcacheWrapper` leaves the store of a fill to another goroutine, so that it is
such a map for a caller that makes no call for a key whose object is still to be stored.
-/

namespace AutomaticCache

open Bytes CacheAside Runs

/-- The object has data, which is not empty. -/
def Object.HasData (o : Object) : Prop := ∃ d, o.data = some d ∧ d ≠ []

theorem Object.HasData.normalize {o : Object} (h : o.HasData) : o.normalize = o := by
  obtain ⟨key, data, originalHeaders⟩ := o
  obtain ⟨d, rfl, hd⟩ := h
  simp [Object.normalize, Option.filter, hd]

/-- Calls for valid keys, of objects that have data and initializers of objects for the key. -/
def ValidCall (valid : Bytes → Prop) :=
  { c : CacheCall // c.Valid Object.key valid Object.HasData }

def ValidCall.call {valid : Bytes → Prop} (c : ValidCall valid) : CacheCall := c.1

section RefinesMap

variable {σ δ : Type} (S : Store σ Bytes Object δ GoError)
  (program : CacheCall → CacheM δ (Result Object GoError)) (valid : Bytes → Prop)

/-- Any number of such calls, each run by a program of the cache. -/
abbrev validCallers (store : σ) : System
    (State σ Bytes Object (ValidCall valid) (CacheM δ (Result Object GoError)))
    (CacheAside.Act (ValidCall valid)) :=
  system S Prog.next (program ∘ ValidCall.call) store

/-- Of calls that follow one another, each returns, and gives what the map gives; and when it has
returned the store has what the map has. -/
def RefinesMap : Prop :=
  ∀ store map, (∀ key, valid key → (S.lookup store key).toOption = map.lookup key) →
    ∀ as t,
    (validCallers S program valid store).run
      (validCallers S program valid store).init as = some t →
    (validCallers S program valid store).Steps (Sequential Prog.next)
      (validCallers S program valid store).init as →
    t.Refines S.keyOf Prog.next ValidCall.call map ∧
    (t.pending = [] ∧ t.Agrees S valid Prog.next ValidCall.call map) ∧
    ∀ i c, t.callers[i]? = some c → t.CanReturn S Prog.next (program ∘ ValidCall.call) store i

/-- The same where no call begins for a key whose object is still to be stored. The store then has
what the map has but for such keys. -/
def RefinesMapUnpending : Prop :=
  ∀ store map, (∀ key, valid key → (S.lookup store key).toOption = map.lookup key) →
    ∀ as t,
    (validCallers S program valid store).run
      (validCallers S program valid store).init as = some t →
    (validCallers S program valid store).Steps (Sequential Prog.next)
      (validCallers S program valid store).init as →
    (validCallers S program valid store).Steps (Unpending S ValidCall.call)
      (validCallers S program valid store).init as →
    t.Refines S.keyOf Prog.next ValidCall.call map ∧
    t.Agrees S valid Prog.next ValidCall.call map ∧
    ∀ i c, t.callers[i]? = some c → t.CanReturn S Prog.next (program ∘ ValidCall.call) store i

variable {S program valid} {d : Design Bytes Object GoError}

theorem refinesMapUnpending_of_design (hprogram : ∀ call, program call =
    d.program δ (.start call))
    (hkey : S.keyOf = Object.key) (hexact : S.Exact valid Object.HasData) :
    RefinesMapUnpending S program valid := by
  intro store map hmap as t hrun hseq hclear
  obtain ⟨hrefines, hagrees⟩ :=
    refines_program (d := d) (fun c : ValidCall valid => hprogram c.call)
    (fun c => hkey ▸ c.2) hexact hmap hrun hseq hclear
  exact ⟨hrefines, hagrees, fun i c hc => canReturn _ hc rfl⟩

theorem refinesMap_of_design (hprogram : ∀ call, program call = d.program δ (.start call))
    (hkey : S.keyOf = Object.key) (hexact : S.Exact valid Object.HasData)
    (hb : d.background = false) : RefinesMap S program valid := by
  intro store map hmap as t hrun hseq
  have hstart : ∀ c : ValidCall valid, (program ∘ ValidCall.call) c =
      d.program δ (.start c.call) :=
    fun c => hprogram c.call
  obtain ⟨hrefines, hagrees, hreturn⟩ :=
    refinesMapUnpending_of_design hprogram hkey hexact store map
    hmap as t hrun hseq (unpending_program hstart hb)
  exact ⟨hrefines, ⟨pending_nil_program hstart hb ⟨as, hrun⟩, hagrees⟩, hreturn⟩

end RefinesMap

theorem BigcacheWrapper.exact {σ : Type} {bc : Backend σ Gob.Message} (hbc : bc.ReadsBack)
    (hkeep : bc.KeepsOthers) {valid : Bytes → Prop} (haccepts : bc.Accepts valid) :
    (BigcacheWrapper.store bc).Exact valid Object.HasData where
  accepts := fun s o hkey _ => haccepts s o.key o.encode hkey
  found := fun s s' o _ ho hput => by
    have hget := BigcacheWrapper.get_of_put hbc hput
    rwa [ho.normalize] at hget
  other := (BigcacheWrapper.lawful hbc hkeep).other

theorem MemcachedClient.exact {σ : Type} {client : Backend σ Item} (hclient : client.ReadsBack)
    (hkeep : client.KeepsOthers) {valid : Bytes → Prop}
    (haccepts : client.Accepts valid) (ttl : ℤ) :
    (MemcachedClient.store client ttl).Exact (fun key => valid key ∧ invalidKey key = false)
      Object.HasData where
  accepts := fun s o hkey ho => by
    obtain ⟨d, hd, -⟩ := ho
    have hne : o.key ≠ [] := fun h => by
      have hvalid : invalidKey o.key = false := hkey.2
      rw [h] at hvalid
      exact absurd hvalid (by decide)
    show ∃ s', MemcachedClient.set client ttl s (some o) = .ok s'
    unfold MemcachedClient.set
    dsimp only
    rw [if_neg hne, if_neg (by rw [hd]; exact nofun)]
    exact haccepts s o.key ⟨o.encode, ttl⟩ hkey.1
  found := fun s s' o hkey ho hput => by
    have hget := MemcachedClient.get_of_set hclient hkey.2 hput
    rwa [ho.normalize] at hget
  other := (MemcachedClient.lawful hclient hkeep ttl).other

theorem DummyPrinterCache.exact (valid : Bytes → Prop) :
    DummyPrinterCache.store.Exact valid Object.HasData where
  accepts := fun _ _ _ _ => ⟨_, rfl⟩
  found := fun s s' o _ _ hput => by
    obtain rfl := Except.ok.inj hput
    exact DummyPrinterCache.lookup_put s o
  other := DummyPrinterCache.lawful.other

/-- **Refinement.** With stores that give back what they are given and never fail: `MemcachedClient`
and `DummyPrinterCache` give a single caller what the map gives, whatever the calls, and
`BigcacheWrapper` does as long as no call begins for a key whose object is still to be stored. -/
theorem refinesMap {σ τ : Type} (bc : Backend σ Gob.Message) (hbc : bc.ReadsBack)
    (hbc' : bc.KeepsOthers) (client : Backend τ Item) (hclient : client.ReadsBack)
    (hclient' : client.KeepsOthers) (ttl : ℤ) (valid : Bytes → Prop)
    (haccepts : bc.Accepts valid) (haccepts' : client.Accepts valid) :
    RefinesMapUnpending (BigcacheWrapper.store bc) BigcacheWrapper.program valid ∧
    RefinesMap (MemcachedClient.store client ttl) MemcachedClient.program
      (fun key => valid key ∧ MemcachedClient.invalidKey key = false) ∧
    RefinesMap DummyPrinterCache.store DummyPrinterCache.program valid :=
  ⟨refinesMapUnpending_of_design BigcacheWrapper.program_eq rfl
      (BigcacheWrapper.exact hbc hbc' haccepts),
    refinesMap_of_design MemcachedClient.program_eq rfl
      (MemcachedClient.exact hclient hclient' haccepts' ttl) rfl,
    refinesMap_of_design DummyPrinterCache.program_eq rfl (DummyPrinterCache.exact valid) rfl⟩

/-- Every key is valid. -/
def anyKey (_ : Bytes) : Prop := True

/-- A get of the key with an initializer that gives an object of one byte. -/
def getByte (body : UInt8) : ValidCall anyKey :=
  ⟨(fillWith body).call, trivial, fun o ho => by
    obtain rfl := Except.ok.inj (Option.some.inj ho)
    exact ⟨(fillWith body).2, [body], rfl, by simp⟩⟩

/-- A get of an absent key. -/
def getOnce : List (CacheAside.Act (ValidCall anyKey)) :=
  [.call (getByte 1), .run 0, .run 0, .run 0, .run 0]

/-- A second get that begins once the object of the first is stored. -/
def getStored : List (CacheAside.Act (ValidCall anyKey)) :=
  getOnce ++ [.put 0, .call (getByte 2), .run 1]

/-- It finds that object. -/
theorem refinesMap_getStored :
    ∃ t, (validCallers (BigcacheWrapper.store bigcacheEntries) BigcacheWrapper.program
        anyKey ∅).run
        (validCallers (BigcacheWrapper.store bigcacheEntries) BigcacheWrapper.program
          anyKey ∅).init
        getStored = some t ∧ t.Refines Object.key Prog.next ValidCall.call ∅ :=
  ⟨_, rfl, ((refinesMap bigcacheEntries (mapBackend_readsBack _ _) (mapBackend_keepsOthers _ _)
    memcachedItems (mapBackend_readsBack _ _) (mapBackend_keepsOthers _ _) 120 anyKey
    (mapBackend_accepts _ _ _) (mapBackend_accepts _ _ _)).1 ∅ ∅
      (fun _ _ => rfl) getStored _ rfl
    (by decide) (by decide)).1⟩

/-- The second get comes before the store of the first, and runs its initializer. -/
theorem not_refinesMap_bigcache :
    ¬ RefinesMap (BigcacheWrapper.store bigcacheEntries) BigcacheWrapper.program anyKey := by
  intro h
  have hrefines := (h ∅ ∅ (fun key _ => rfl)
    (getOnce ++ [.call (getByte 2), .run 1, .run 1, .run 1, .run 1]) _ rfl (by decide)).1
  exact absurd (hrefines 1 _ _ rfl rfl) (by decide)

end AutomaticCache
