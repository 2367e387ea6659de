import Mathlib.Data.List.Basic
import PreviewApps.Proofs.Assoc
import PreviewApps.Proofs.Cluster.Api
import PreviewApps.Proofs.Text.Digit

/-!
The server in memory is an API server. Its keys stay distinct, and its counter keeps ahead of the
names generated so far.
-/

namespace PreviewApps

namespace Cluster.Server

def generated (stem : String) (n : Nat) : String :=
  stem ++ "-" ++ String.ofList (Text.padded 5 n)

theorem cutFirst_generated (stem : String) (n : Nat) :
    Text.cutFirst '-' (generated stem n).toList.reverse =
      some ((Text.padded 5 n).reverse, stem.toList.reverse) := by
  have hchars : (generated stem n).toList.reverse =
      (Text.padded 5 n).reverse ++ '-' :: stem.toList.reverse := by simp [generated]
  rw [hchars]
  exact Text.cutFirst_append _ fun h => Text.hyphen_notMem_padded 5 n (List.mem_reverse.1 h)

theorem generated_inj {s t : String} {m n : Nat} (h : generated s m = generated t n) : m = n := by
  have hcut := cutFirst_generated s m
  rw [h, cutFirst_generated, Option.some_inj, Prod.mk.injEq] at hcut
  exact (Text.padded_inj (List.reverse_inj.1 hcut.1)).symm

/-- Keys are distinct, and names that are still to be generated are free. -/
structure Valid (s : Server) : Prop where
  nodup : (s.objects.map (·.1)).Nodup
  unused : ∀ ns stem n, s.counter < n →
    s.objects.lookup ⟨.claims, ns, generated stem n⟩ = none

def stored (s : Server) : Store := fun key => s.objects.lookup key

theorem stored_insert (key : Key) (j : Json) (s : Server) :
    stored { s with objects := Assoc.insert key j s.objects } = s.stored.put key j := by
  funext k
  by_cases hk : k = key
  · subst hk
    rw [Store.put_self]
    exact Assoc.lookup_insert_self k j s.objects
  · rw [Store.put_of_ne hk]
    exact Assoc.lookup_insert_of_ne hk j s.objects

theorem stored_erase {key : Key} {s : Server} (hs : (s.objects.map (·.1)).Nodup) :
    (fun k => (Assoc.erase key s.objects).lookup k) = fun k =>
      if k = key then none else s.stored k := by
  funext k
  split
  · next hk => exact hk ▸ Assoc.lookup_erase_self hs
  · next hk => exact Assoc.lookup_erase_of_ne hk s.objects

theorem Valid.subset {s : Server} {objects : List (Key × Json)} (hs : s.Valid)
    (h : objects.Sublist s.objects) : Valid { s with objects } := by
  have hnodup := hs.nodup.sublist (h.map _)
  refine ⟨hnodup, ?_⟩
  intro ns stem n hn
  refine Assoc.lookup_eq_none_of_notMem ?_
  intro hmem
  obtain ⟨e, he, hkey⟩ := List.mem_map.1 hmem
  have hlookup := Assoc.lookup_of_mem hs.nodup (h.subset he)
  rw [hkey, hs.unused ns stem n hn] at hlookup
  cases hlookup

theorem Valid.insert {s : Server} {key : Key} (hs : s.Valid) (hkey : s.stored key ≠ none)
    (j : Json) : Valid { s with objects := Assoc.insert key j s.objects } := by
  refine ⟨Assoc.nodup_keys_insert hs.nodup key j, ?_⟩
  intro ns stem n hn
  have hunused := hs.unused ns stem n hn
  have hne : (⟨.claims, ns, generated stem n⟩ : Key) ≠ key := by
    intro he
    exact hkey (he ▸ hunused)
  exact (Assoc.lookup_insert_of_ne hne j s.objects).trans hunused

theorem startOf_eq_ok {metadata : List (String × Json)} {s : String} {t : Timestamp}
    (h : member "creationTimestamp" metadata = .str s) (ht : Iso.timestamp (spellZone s) = some t) :
    startOf metadata = .ok (some t) := by
  rw [startOf, h]
  simp only [ht]

theorem assigned_create (n : Nat) :
    Assigned [("uid", .str ("uid-" ++ toString n)),
      ("creationTimestamp", .str "2024-01-01T10:00:00Z")] := by
  have htime : (Iso.timestamp (spellZone "2024-01-01T10:00:00Z")).isSome := by decide +kernel
  obtain ⟨t, ht⟩ := Option.isSome_iff_exists.1 htime
  refine ⟨by simp [writtenKeys], ?_⟩
  intro e he
  simp only [List.mem_cons, List.not_mem_nil, or_false] at he
  rcases he with rfl | rfl
  · exact ⟨none, rfl⟩
  · exact ⟨some t, startOf_eq_ok rfl ht⟩

theorem nameFor_of_stem? {body : Json} {stem : String} (h : stem? body = some stem) (n : Nat) :
    nameFor n body = stem ++ String.ofList (Text.padded 5 n) := by
  have hpath : body.path ["metadata", "generateName"] = .str stem := by
    cases hj : body.path ["metadata", "generateName"] <;> rw [stem?, hj] at h <;> cases h
    rfl
  rw [nameFor, hpath]

theorem nameFor_of_stem?_eq_none {body : Json} (h : stem? body = none) (n : Nat) :
    nameFor n body = givenName body := by
  unfold nameFor
  split
  · next hpath =>
    rw [stem?, hpath] at h
    cases h
  · rfl

theorem stored_append {key : Key} {s : Server} (hnew : s.stored key = none) (j : Json) (n : Nat) :
    stored ⟨s.objects ++ [(key, j)], n⟩ = s.stored.put key j := by
  funext k
  change (s.objects ++ [(key, j)]).lookup k = _
  rw [List.lookup_append]
  by_cases hk : k = key
  · subst hk
    rw [Store.put_self]
    change (s.stored k).or _ = _
    rw [hnew, Option.none_or, List.lookup_cons, BEq.rfl]
  · rw [Store.put_of_ne hk, List.lookup_cons, beq_false_of_ne hk, List.lookup_nil, Option.or_none]
    rfl

theorem nameFor_of_proper {ns : String} {body : Json}
    (hc : (Call.create .claims ns body).Proper) (n : Nat) :
    ∃ stem, nameFor n body = generated stem n := by
  rcases hc with ⟨-, hkind⟩ | ⟨stem, hstem, -⟩
  · exact absurd rfl hkind
  · exact ⟨stem, nameFor_of_stem? hstem n⟩

theorem stored_nameFor_eq_none {ns : String} {body : Json} {s : Server} (hs : s.Valid)
    (hc : (Call.create .claims ns body).Proper) :
    s.stored ⟨.claims, ns, nameFor (s.counter + 1) body⟩ = none := by
  obtain ⟨stem, hname⟩ := nameFor_of_proper hc (s.counter + 1)
  rw [hname]
  exact hs.unused ns stem _ (Nat.lt_succ_self _)

theorem serves_create {kind : Kind} {ns : String} {body : Json} {s : Server} (hs : s.Valid)
    (hc : (Call.create kind ns body).Proper) :
    Serves s.stored (.create kind ns body) (s.create kind ns body).1
      (s.create kind ns body).2.stored := by
  cases hold : s.stored ⟨kind, ns, nameFor (s.counter + 1) body⟩ with
  | none =>
    have hfree : (s.objects.lookup ⟨kind, ns, nameFor (s.counter + 1) body⟩).isSome = false :=
      congrArg Option.isSome hold
    simp only [create, hfree, Bool.false_eq_true, if_false]
    rw [stored_append hold]
    exact .created (fun h => nameFor_of_stem?_eq_none h _) hold (assigned_create _)
  | some old =>
    have htaken : (s.objects.lookup ⟨kind, ns, nameFor (s.counter + 1) body⟩).isSome = true :=
      congrArg Option.isSome hold
    have hstem : stem? body = none := by
      rcases hc with ⟨hstem, -⟩ | ⟨front, hstem, rfl⟩
      · exact hstem
      · rw [stored_nameFor_eq_none hs (.inr ⟨front, hstem, rfl⟩)] at hold
        cases hold
    rw [nameFor_of_stem?_eq_none hstem] at hold
    simp only [create, htaken, if_true]
    exact .conflict hstem hold

theorem valid_create {kind : Kind} {ns : String} {body : Json} {s : Server} (hs : s.Valid)
    (hc : (Call.create kind ns body).Proper) : (s.create kind ns body).2.Valid := by
  unfold create
  dsimp only
  split
  · exact ⟨hs.nodup, fun ns stem n hn => hs.unused ns stem n (Nat.lt_of_succ_lt hn)⟩
  · next hfree =>
    have hnone : s.stored ⟨kind, ns, nameFor (s.counter + 1) body⟩ = none :=
      Option.not_isSome_iff_eq_none.1 hfree
    constructor
    · rw [List.map_append, List.nodup_append]
      refine ⟨hs.nodup, by simp, ?_⟩
      intro a ha b hb hab
      obtain ⟨e, he, rfl⟩ := List.mem_map.1 ha
      have hlookup := Assoc.lookup_of_mem hs.nodup he
      rw [hab, List.mem_singleton.1 hb] at hlookup
      rw [stored, hlookup] at hnone
      cases hnone
    · intro ns' stem n hn
      have hunused := hs.unused ns' stem n (Nat.lt_of_succ_lt hn)
      change stored ⟨s.objects ++ [_], _⟩ _ = none
      rw [stored_append hnone, Store.put_of_ne]
      · exact hunused
      · -- only a new claim has a generated name, and with a lower number
        intro hkey
        rw [Key.mk.injEq] at hkey
        obtain ⟨hkind, -, hname⟩ := hkey
        subst hkind
        obtain ⟨stem', hgenerated⟩ := nameFor_of_proper hc (s.counter + 1)
        rw [hgenerated] at hname
        exact absurd (generated_inj hname) (Nat.ne_of_gt hn)

theorem serves_change {c : Call} {key : Key} {f : Json → Json} {s : Server}
    (hkey : c.target? = some key)
    (hok : ∀ old, s.stored key = some old →
      Serves s.stored c (.ok (f old)) (s.stored.put key (f old))) :
    Serves s.stored c (s.change key f).1 (s.change key f).2.stored := by
  unfold change
  split
  · next hnone => exact .missing hkey hnone
  · next old hold =>
    rw [stored_insert]
    exact hok old hold

theorem valid_change {key : Key} {f : Json → Json} {s : Server} (hs : s.Valid) :
    (s.change key f).2.Valid := by
  unfold change
  split
  · exact hs
  · next old hold => exact hs.insert (by rw [stored, hold]; simp) _

theorem put_of_eq_some {m : Store} {key : Key} {j : Json} (h : m key = some j) :
    m.put key j = m := by
  funext k
  by_cases hk : k = key
  · rw [hk, Store.put_self, h]
  · exact Store.put_of_ne hk j m

theorem kept_keepAssigned (old : Json) :
    Kept old (["uid", "creationTimestamp"].filterMap fun k =>
      ((old.get "metadata").member? k).map fun v => (k, v)) := by
  have hforeign : ∀ k ∈ ["uid", "creationTimestamp"], k ∉ writtenKeys := by decide
  constructor
  · intro e he
    obtain ⟨k, hk, hv⟩ := List.mem_filterMap.1 he
    obtain ⟨v, -, rfl⟩ := Option.map_eq_some_iff.1 hv
    exact hforeign k hk
  · intro e he
    obtain ⟨k, -, hv⟩ := List.mem_filterMap.1 he
    obtain ⟨v, hmember, rfl⟩ := Option.map_eq_some_iff.1 hv
    exact hmember

def rest (key : Key) (s : Server) : List (Key × Json) :=
  let rest := Assoc.erase key s.objects
  if key.kind = .namespaces then rest.filter fun e => e.1.namespaceId != key.name else rest

theorem rest_sublist (key : Key) (s : Server) : (rest key s).Sublist s.objects := by
  unfold rest
  dsimp only
  split
  · exact List.filter_sublist.trans (Assoc.erase_sublist key s.objects)
  · exact Assoc.erase_sublist key s.objects

theorem lookup_rest {s : Server} (hs : s.Valid) (key k : Key) :
    (rest key s).lookup k = s.stored.delete key k := by
  have herase : (Assoc.erase key s.objects).lookup k = if k = key then none else s.stored k :=
    congrFun (stored_erase hs.nodup) k
  unfold rest Store.delete
  dsimp only
  by_cases hkind : key.kind = .namespaces
  · have hfilter := Assoc.lookup_filter_keys (fun k : Key => k.namespaceId != key.name) k
      (Assoc.erase key s.objects)
    rw [if_pos hkind, hfilter, herase]
    by_cases hns : k.namespaceId = key.name
    · rw [if_neg (by simp [hns]), if_pos (.inr ⟨hkind, hns⟩)]
    · rw [if_pos (by simp [hns])]
      simp only [hns, and_false, or_false]
  · simp only [hkind, if_false, false_and, or_false, herase]

theorem serves_remove {kind : Kind} {ns name : String} {s : Server} (hs : s.Valid) :
    Serves s.stored (.delete kind ns name) (s.remove ⟨kind, ns, name⟩).1
      (s.remove ⟨kind, ns, name⟩).2.stored := by
  unfold remove
  split
  · next hnone => exact .missing rfl hnone
  · next old hold =>
    have hstored : (fun k => (rest ⟨kind, ns, name⟩ s).lookup k) =
        s.stored.delete ⟨kind, ns, name⟩ := funext (lookup_rest hs _)
    change Serves _ _ _ fun k => (rest ⟨kind, ns, name⟩ s).lookup k
    rw [hstored]
    exact .deleted hold

theorem valid_remove {key : Key} {s : Server} (hs : s.Valid) : (s.remove key).2.Valid := by
  unfold remove
  split
  · exact hs
  · exact hs.subset (rest_sublist key s)

theorem lists_listed {s : Server} (hs : s.Valid) (p : Key → Bool) (selector : String) :
    let found := s.objects.filter fun e => p e.1 && selects selector e.2
    Lists s.stored (p ·) selector (found.map (·.1)) ∧
      (found.map (·.1)).filterMap s.stored = found.map (·.2) := by
  intro found
  have hfound : ∀ e ∈ found, s.stored e.1 = some e.2 := by
    intro e he
    exact Assoc.lookup_of_mem hs.nodup (List.mem_filter.1 he).1
  refine ⟨⟨?_, ?_⟩, ?_⟩
  · exact hs.nodup.sublist (List.filter_sublist.map _)
  · intro key
    constructor
    · intro hkey
      obtain ⟨e, he, rfl⟩ := List.mem_map.1 hkey
      have hp := Bool.and_eq_true_iff.1 (List.mem_filter.1 he).2
      exact ⟨hp.1, e.2, hfound e he, hp.2⟩
    · rintro ⟨hp, j, hj, hselects⟩
      have hmem : (key, j) ∈ found := by
        apply List.mem_filter.2
        exact ⟨Assoc.mem_of_lookup hj, Bool.and_eq_true_iff.2 ⟨hp, hselects⟩⟩
      exact List.mem_map.2 ⟨(key, j), hmem, rfl⟩
  · rw [List.filterMap_map]
    exact List.filterMap_eq_map_iff_forall_eq_some.2 hfound

theorem exists_keys_listed {s : Server} (hs : s.Valid) (p : Key → Bool) (selector : String) :
    ∃ keys, Lists s.stored (p ·) selector keys ∧
      s.listed p selector = .arr (keys.filterMap s.stored) := by
  obtain ⟨hlists, hvalues⟩ := lists_listed hs p selector
  exact ⟨_, hlists, congrArg Json.arr hvalues.symm⟩

theorem serves_answer {s : Server} {c : Call} (hs : s.Valid) (hc : c.Proper) :
    Serves s.stored c (answer c s).1 (answer c s).2.stored := by
  cases c with
  | create kind ns body => exact serves_create hs hc
  | patch kind ns name body => exact serves_change rfl fun old hold => .patched hold
  | replace kind ns name body =>
    exact serves_change rfl fun old hold => .replaced hold (kept_keepAssigned old)
  | delete kind ns name => exact serves_remove hs
  | get kind ns name =>
    refine serves_change rfl fun j hj => ?_
    rw [id, put_of_eq_some hj]
    exact .got hj
  | list kind ns selector =>
    obtain ⟨keys, hkeys, hlisted⟩ :=
      exists_keys_listed hs (fun k => k.kind = kind ∧ k.namespaceId = ns) selector
    simp only [decide_eq_true_eq] at hkeys
    rw [answer, hlisted]
    exact .listed hkeys
  | listEverywhere kind selector =>
    obtain ⟨keys, hkeys, hlisted⟩ := exists_keys_listed hs (fun k => k.kind = kind) selector
    simp only [decide_eq_true_eq] at hkeys
    rw [answer, hlisted]
    exact .listedEverywhere hkeys
  | podLog ns name since => exact .logged

theorem valid_answer {s : Server} {c : Call} (hs : s.Valid) (hc : c.Proper) :
    (answer c s).2.Valid := by
  cases c with
  | create kind ns body => exact valid_create hs hc
  | patch kind ns name body => exact valid_change hs
  | replace kind ns name body => exact valid_change hs
  | delete kind ns name => exact valid_remove hs
  | get kind ns name => exact valid_change hs
  | list kind ns selector => exact hs
  | listEverywhere kind selector => exact hs
  | podLog ns name since => exact hs

theorem valid_empty : Valid empty :=
  ⟨List.nodup_nil, fun _ _ _ _ => rfl⟩

def api : ApiServer Server where
  answer := answer
  stored := stored
  Valid := Valid
  serves := serves_answer
  valid_answer := valid_answer

end Cluster.Server

end PreviewApps
