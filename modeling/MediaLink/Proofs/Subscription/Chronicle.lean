import MediaLink.Proofs.Subscription.Finding
import Mathlib.Data.List.Induction

/-! What is in a registry, and in which order, can be read off the operations that made it. -/
namespace MediaLink

section Rise

variable {α : Type} {p : List α → Bool} {items : List α} {i : Nat}

/-- The last index at which a property of the items so far goes from false to true. -/
def lastRise? (p : List α → Bool) (items : List α) : Option Nat :=
  ((List.range items.length).filter fun i =>
    !p (items.take i) && p (items.take (i + 1))).getLast?

theorem lastRise?_snoc (p : List α → Bool) (items : List α) (item : α) :
    lastRise? p (items ++ [item]) =
      if p items = false ∧ p (items ++ [item]) then some items.length else lastRise? p items := by
  have hold : (List.range items.length).filter (fun i =>
        !p ((items ++ [item]).take i) && p ((items ++ [item]).take (i + 1))) =
      (List.range items.length).filter fun i => !p (items.take i) && p (items.take (i + 1)) := by
    refine List.filter_congr fun i hi => ?_
    have hlt := List.mem_range.mp hi
    rw [List.take_append_of_le_length (by omega), List.take_append_of_le_length (by omega)]
  have hlast : (items ++ [item]).take (items.length + 1) = items ++ [item] :=
    List.take_of_length_le (by simp)
  rw [lastRise?, List.length_append, List.length_singleton, List.range_succ, List.filter_append,
    hold]
  by_cases h : p items = false ∧ p (items ++ [item])
  · simp [h, hlast]
  · have hn : (!p items && p (items ++ [item])) = false := by simpa using h
    simp [h, hlast, hn, lastRise?]

theorem lastRise?_new (h : ¬ p items) {item : α} (hn : p (items ++ [item])) :
    lastRise? p (items ++ [item]) = some items.length := by
  rw [lastRise?_snoc, if_pos ⟨by simpa using h, hn⟩]

theorem lastRise?_kept (h : p items) (item : α) :
    lastRise? p (items ++ [item]) = lastRise? p items := by
  rw [lastRise?_snoc, if_neg]
  simp [h]

theorem lastRise?_lt (h : lastRise? p items = some i) : i < items.length := by
  have hm := List.mem_of_getLast? h
  exact List.mem_range.mp (List.mem_filter.mp hm).1

theorem lastRise?_lt_length (p : List α → Bool) (items : List α) :
    lastRise? p items < some items.length := by
  cases h : lastRise? p items with
  | none => trivial
  | some i => exact Option.some_lt_some.mpr (lastRise?_lt h)

/-- What was false at first and is true now has come about. -/
theorem lastRise?_isSome (h0 : p [] = false) (h : p items) : (lastRise? p items).isSome := by
  induction items using List.reverseRecOn with
  | nil => cases h0.symm.trans h
  | append_singleton items item ih =>
    rw [lastRise?_snoc]
    cases hp : p items with
    | false => simp [h]
    | true => simpa using ih hp

end Rise

variable {κ : Type}

namespace EntrySet

/-- Options denote at most one key. -/
theorem Distinct.filter_keys {s : EntrySet κ} (h : s.Distinct) (options : Option Payload) :
    s.keys.filter (·.admits options) = ((s.find? options).map Prod.fst).toList := by
  have hone := h.admits_one options
  simp only [keys, find?]
  generalize s.entries = entries at hone ⊢
  induction entries with
  | nil => rfl
  | cons entry rest ih =>
    obtain ⟨hn, hr⟩ := List.pairwise_cons.mp hone
    cases ha : entry.1.admits options with
    | false => simpa [ha] using ih hr
    | true =>
      have hrest : (rest.map Prod.fst).filter (·.admits options) = [] := by
        rw [List.filter_eq_nil_iff, List.forall_mem_map]
        intro other ho
        simp [hn other ho ha]
      simp [ha, hrest]

end EntrySet

namespace Registry

/-! What can be done to a registry, and what it answers. -/

inductive Operation (κ : Type) where
  | insert (node : String) (options : Option Payload) (callback : κ)
  | remove (node : String) (options : Option Payload)

/-- An insert answers whether there was an equal key, a removal what key it took. -/
inductive Outcome where
  | inserted (replaced : Bool)
  | removed (key : Option Key)

namespace Operation

def node : Operation κ → String
  | insert node _ _ | remove node _ => node

def options : Operation κ → Option Payload
  | insert _ options _ | remove _ options => options

def callback? : Operation κ → Option κ
  | insert _ _ callback => some callback
  | remove _ _ => none

def apply (r : Registry κ) : Operation κ → Registry κ
  | insert node options callback => r.insert node ⟨options⟩ callback
  | remove node options => r.erase node options

def outcome (r : Registry κ) : Operation κ → Outcome
  | insert node options _ => .inserted (r.contains node options)
  | remove node options => .removed ((r.find? node options).map Prod.fst)

/-- Whether an operation is on this node, with equal options. -/
def concerns (node : String) (options : Option Payload) (o : Operation κ) : Bool :=
  o.node == node && Key.admits ⟨o.options⟩ options

end Operation

/-- The registry that operations make out of nothing. -/
def build (ops : List (Operation κ)) : Registry κ := ops.foldl Operation.apply .empty

/-! What the operations say. -/

section Chronicle

variable (node : String) (options : Option Payload) (ops : List (Operation κ))

def last? : Option (Operation κ) := (ops.filter (Operation.concerns node options)).getLast?

/-- The callback of the last operation, if that is an insert. -/
def latest? : Option κ := (last? node options ops).bind Operation.callback?

/-- An entry is there if the last operation on it is an insert. -/
def present : Bool := (latest? node options ops).isSome

/-- The operation with which an entry came last, after it had been absent. -/
def arrival : Option Nat := lastRise? (present node options) ops

def occupied : Bool := ops.any fun o => o.node == node && present node o.options ops

/-- The operation with which a node came last, after it had had no entry. -/
def nodeArrival : Option Nat := lastRise? (occupied node) ops

/-- The entry with the callback that was given last, and the options that it came with. -/
def recorded? : Option (Key × κ) :=
  match latest? node options ops, (arrival node options ops).bind (ops[·]?) with
  | some callback, some first => some (⟨first.options⟩, callback)
  | _, _ => none

end Chronicle

/-- The node of one entry came before that of another, or the node is the same and the entry itself
came before. -/
def Precedes (ops : List (Operation κ)) (x y : String × Option Payload) : Prop :=
  if x.1 = y.1 then arrival x.1 x.2 ops < arrival y.1 y.2 ops
  else nodeArrival x.1 ops < nodeArrival y.1 ops

variable {r : Registry κ} {ops : List (Operation κ)} {o : Operation κ} {node : String}
  {options : Option Payload}

theorem build_snoc (ops : List (Operation κ)) (o : Operation κ) :
    build (ops ++ [o]) = o.apply (build ops) := List.foldl_append

theorem sound_build (ops : List (Operation κ)) : (build ops).Sound := by
  induction ops using List.reverseRecOn with
  | nil => exact sound_empty
  | append_singleton ops o ih =>
    rw [build_snoc]
    cases o with
    | insert node options callback => exact ih.insert node ⟨options⟩ callback
    | remove node options => exact ih.erase node options

theorem last?_snoc (node : String) (options : Option Payload) (ops : List (Operation κ))
    (o : Operation κ) : last? node options (ops ++ [o]) =
      if o.concerns node options then some o else last? node options ops := by
  by_cases h : o.concerns node options <;> simp [last?, h]

theorem latest?_snoc (node : String) (options : Option Payload) (ops : List (Operation κ))
    (o : Operation κ) : latest? node options (ops ++ [o]) =
      if o.concerns node options then o.callback? else latest? node options ops := by
  rw [latest?, last?_snoc]
  split <;> rfl

/-- An entry that is there has come with one of the operations. -/
theorem arrived (h : present node options ops) :
    ∃ i first, arrival node options ops = some i ∧ ops[i]? = some first := by
  have hs : (arrival node options ops).isSome := lastRise?_isSome rfl h
  obtain ⟨i, hi⟩ := Option.isSome_iff_exists.mp hs
  exact ⟨i, _, hi, List.getElem?_eq_getElem (lastRise?_lt hi)⟩

theorem recorded?_callback (node : String) (options : Option Payload) (ops : List (Operation κ)) :
    (recorded? node options ops).map Prod.snd = latest? node options ops := by
  cases hl : latest? node options ops with
  | none => simp [recorded?, hl]
  | some callback =>
    have hp : present node options ops := by simp [present, hl]
    obtain ⟨i, first, hi, hf⟩ := arrived hp
    simp [recorded?, hl, hi, hf]

theorem recorded?_isSome (node : String) (options : Option Payload) (ops : List (Operation κ)) :
    (recorded? node options ops).isSome = present node options ops := by
  rw [present, ← recorded?_callback, Option.isSome_map]

theorem arrival_new (h : ¬ present node options ops) (hn : present node options (ops ++ [o])) :
    arrival node options (ops ++ [o]) = some ops.length := lastRise?_new h hn

/-- An operation on something else. -/
theorem arrival_other (h : present node options (ops ++ [o]) = present node options ops) :
    arrival node options (ops ++ [o]) = arrival node options ops := by
  rw [arrival, lastRise?_snoc, if_neg]
  · rfl
  · simp [h]

theorem arrival_kept (h : present node options ops) (o : Operation κ) :
    arrival node options (ops ++ [o]) = arrival node options ops := lastRise?_kept h o

/-- An insert replaces the callback of an entry that is there, and otherwise makes one. -/
theorem recorded?_snoc (node : String) (options : Option Payload) (ops : List (Operation κ))
    (o : Operation κ) : recorded? node options (ops ++ [o]) =
      if o.concerns node options then
        o.callback?.map fun callback =>
          (((recorded? node options ops).map Prod.fst).getD ⟨o.options⟩, callback)
      else recorded? node options ops := by
  have hfirst : ∀ i, arrival node options ops = some i → (ops ++ [o])[i]? = ops[i]? :=
    fun i hi => List.getElem?_append_left (lastRise?_lt hi)
  by_cases hc : o.concerns node options
  · have hl : latest? node options (ops ++ [o]) = o.callback? := by rw [latest?_snoc, if_pos hc]
    rw [if_pos hc]
    cases ho : o.callback? with
    | none => simp [recorded?, hl, ho]
    | some callback =>
      by_cases hp : present node options ops
      · obtain ⟨i, first, hi, hf⟩ := arrived hp
        obtain ⟨old, hold⟩ := Option.isSome_iff_exists.mp hp
        simp [recorded?, hl, ho, arrival_kept hp, hi, hfirst i hi, hf, hold]
      · have hpresent : present node options (ops ++ [o]) := by simp [present, hl, ho]
        have hn : recorded? node options ops = none := by
          rwa [← Option.not_isSome_iff_eq_none, recorded?_isSome]
        have hv : recorded? node options (ops ++ [o]) = some (⟨o.options⟩, callback) := by
          simp [recorded?, hl, ho, arrival_new hp hpresent]
        rw [hv, hn]
        rfl
  · have hl : latest? node options (ops ++ [o]) = latest? node options ops := by
      rw [latest?_snoc, if_neg hc]
    have ha : arrival node options (ops ++ [o]) = arrival node options ops :=
      arrival_other (by rw [present, hl, present])
    rw [if_neg hc, recorded?, hl, ha]
    cases hi : arrival node options ops with
    | none => simp [recorded?, hi]
    | some i => simp [recorded?, hi, hfirst i hi]

theorem find?_build (node : String) (options : Option Payload) (ops : List (Operation κ)) :
    (build ops).find? node options = recorded? node options ops := by
  induction ops using List.reverseRecOn with
  | nil => rfl
  | append_singleton ops o ih =>
    rw [build_snoc, recorded?_snoc, ← ih]
    cases o with
    | insert n given callback =>
      simp [Operation.apply, find?_insert, Operation.concerns, Operation.node, Operation.options,
        Operation.callback?]
    | remove n given =>
      simp [Operation.apply, (sound_build ops).find?_erase, Operation.concerns, Operation.node,
        Operation.options, Operation.callback?]

theorem contains_build (node : String) (options : Option Payload) (ops : List (Operation κ)) :
    (build ops).contains node options = present node options ops := by
  rw [contains, find?_build, recorded?_isSome]

/-! Nodes. -/

theorem present_congr {given : Option Payload} (h : Key.admits ⟨given⟩ options) (node : String)
    (ops : List (Operation κ)) : present node given ops = present node options ops := by
  have hc : Operation.concerns (κ := κ) node given = Operation.concerns node options := by
    funext o
    have hs := Key.same_congr_right (l := ⟨given⟩) (m := ⟨options⟩) h ⟨o.options⟩
    exact congrArg (o.node == node && ·) hs
  simp [present, latest?, last?, hc]

theorem occupied_iff : occupied node ops ↔ ∃ options, present node options ops := by
  simp only [occupied, List.any_eq_true, Bool.and_eq_true, beq_iff_eq]
  constructor
  · rintro ⟨o, -, -, hp⟩
    exact ⟨o.options, hp⟩
  · rintro ⟨options, hp⟩
    -- The operation that made the entry last is on the node, with equal options.
    obtain ⟨callback, hl⟩ := Option.isSome_iff_exists.mp hp
    obtain ⟨o, ho, -⟩ := Option.bind_eq_some_iff.mp hl
    obtain ⟨hm, hc⟩ := List.mem_filter.mp (List.mem_of_getLast? ho)
    simp only [Operation.concerns, Bool.and_eq_true, beq_iff_eq] at hc
    exact ⟨o, hm, hc.1, (present_congr hc.2 node ops).trans hp⟩

/-- Every key of a node is found. -/
theorem present_key {key : Key} (hk : key ∈ (build ops).keys node) :
    present node key.options ops := by
  rw [← contains_build, contains_iff_any, List.any_eq_true]
  exact ⟨key, hk, key.same_refl⟩

theorem occupied_iff_listed : occupied node ops ↔ node ∈ (build ops).order := by
  rw [occupied_iff, (sound_build ops).mem_order_iff]
  constructor
  · rintro ⟨options, hp⟩
    rw [← contains_build, contains_iff_any, List.any_eq_true] at hp
    obtain ⟨key, hk, -⟩ := hp
    exact List.ne_nil_of_mem hk
  · intro hn
    obtain ⟨key, hk⟩ := List.exists_mem_of_ne_nil _ hn
    exact ⟨key.options, present_key hk⟩

/-! The order. -/

theorem present_inserted (node : String) (options : Option Payload) (callback : κ)
    (ops : List (Operation κ)) :
    present node options (ops ++ [.insert node options callback]) := by
  have hc : (Operation.insert node options callback).concerns node options := by
    have hs : Key.admits ⟨options⟩ options = true := Key.same_refl ⟨options⟩
    simp [Operation.concerns, Operation.node, Operation.options, hs]
  simp [present, latest?_snoc, hc, Operation.callback?]

theorem nodeArrival_new (h : ¬ occupied node ops) (hn : occupied node (ops ++ [o])) :
    nodeArrival node (ops ++ [o]) = some ops.length := lastRise?_new h hn

theorem nodeArrival_kept (h : occupied node ops) (o : Operation κ) :
    nodeArrival node (ops ++ [o]) = nodeArrival node ops := lastRise?_kept h o

/-- Nodes and the keys of each node are listed as they came. -/
structure Ordered (ops : List (Operation κ)) (r : Registry κ) : Prop where
  names : r.order.Pairwise fun m n => nodeArrival m ops < nodeArrival n ops
  keys : ∀ node, (r.keys node).Pairwise fun k l =>
    arrival node k.options ops < arrival node l.options ops

/-- What is there does not come again. -/
theorem Ordered.kept (h : Ordered ops (build ops)) (o : Operation κ) :
    Ordered (ops ++ [o]) (build ops) := by
  refine ⟨h.names.imp_of_mem fun hm hn hlt => ?_, fun node => ?_⟩
  · rwa [nodeArrival_kept (occupied_iff_listed.mpr hm),
      nodeArrival_kept (occupied_iff_listed.mpr hn)]
  · refine (h.keys node).imp_of_mem fun hk hl hlt => ?_
    rwa [arrival_kept (present_key hk), arrival_kept (present_key hl)]

/-- A node that is new comes last. -/
theorem names_ordered_insert (h : Ordered ops (build ops)) (node : String)
    (options : Option Payload) (callback : κ) :
    ((build ops).insert node ⟨options⟩ callback).order.Pairwise fun m n =>
      nodeArrival m (ops ++ [.insert node options callback]) <
        nodeArrival n (ops ++ [.insert node options callback]) := by
  have hk := h.kept (.insert node options callback)
  rw [order_insert]
  by_cases hm : node ∈ (build ops).order
  · rw [if_pos (((sound_build ops).listed node).mp hm)]
    exact hk.names
  · rw [if_neg (mt ((sound_build ops).listed node).mpr hm), List.pairwise_append]
    refine ⟨hk.names, List.pairwise_singleton _ _, fun m hold n hn => ?_⟩
    rw [List.mem_singleton.mp hn, nodeArrival_kept (occupied_iff_listed.mpr hold),
      nodeArrival_new (mt occupied_iff_listed.mp hm)
        (occupied_iff.mpr ⟨options, present_inserted node options callback ops⟩)]
    exact lastRise?_lt_length _ _

/-- A key that is new comes last in its node. -/
theorem keys_ordered_insert (h : Ordered ops (build ops)) (node : String)
    (options : Option Payload) (callback : κ) (n : String) :
    (((build ops).insert node ⟨options⟩ callback).keys n).Pairwise fun k l =>
      arrival n k.options (ops ++ [.insert node options callback]) <
        arrival n l.options (ops ++ [.insert node options callback]) := by
  have hold := (h.kept (.insert node options callback)).keys n
  rw [keys_insert, contains_build]
  split
  · rename_i hnew
    obtain ⟨rfl, habsent⟩ := hnew
    rw [List.pairwise_append]
    refine ⟨hold, List.pairwise_singleton _ _, fun k hk l hl => ?_⟩
    rw [List.mem_singleton.mp hl, arrival_kept (present_key hk),
      arrival_new habsent (present_inserted node options callback ops)]
    exact lastRise?_lt_length _ _
  · exact hold

theorem ordered_build (ops : List (Operation κ)) : Ordered ops (build ops) := by
  induction ops using List.reverseRecOn with
  | nil => exact ⟨.nil, fun _ => .nil⟩
  | append_singleton ops o ih =>
    rw [build_snoc]
    cases o with
    | insert node options callback =>
      exact ⟨names_ordered_insert ih node options callback,
        keys_ordered_insert ih node options callback⟩
    | remove node options =>
      have hk := ih.kept (.remove node options)
      have hs := sound_build ops
      refine ⟨?_, fun n => ?_⟩
      · rw [Operation.apply, hs.order_erase]
        exact hk.names.filter _
      · rw [Operation.apply, hs.keys_erase]
        exact (hk.keys n).filter _

theorem replay_ordered (ops : List (Operation κ)) :
    (build ops).replay.Pairwise (Precedes ops) := by
  have h := ordered_build ops
  rw [replay_eq, List.pairwise_flatMap]
  constructor
  · intro n _
    refine List.pairwise_map.mpr ((h.keys n).imp fun hlt => ?_)
    rwa [Precedes, if_pos rfl]
  · refine (h.names.and (sound_build ops).nodup).imp ?_
    rintro m n ⟨hlt, hne⟩ x hx y hy
    obtain ⟨k, -, rfl⟩ := List.mem_map.mp hx
    obtain ⟨l, -, rfl⟩ := List.mem_map.mp hy
    rwa [Precedes, if_neg hne]

/-- What contributes nothing can be left out. -/
theorem flatMap_filter {α β : Type} {p : α → Bool} {f : α → List β}
    (h : ∀ a, p a = false → f a = []) (l : List α) : (l.filter p).flatMap f = l.flatMap f := by
  induction l with
  | nil => rfl
  | cons a l ih => cases hp : p a <;> simp [hp, ih, h a]

/-- Options denote at most one of the entries that a provider hears of. -/
theorem Sound.filter_replay (h : r.Sound) (node : String) (options : Option Payload) :
    r.replay.filter (fun entry => entry.1 == node && Key.admits ⟨entry.2⟩ options) =
      ((r.find? node options).map fun (key, _) => (node, key.options)).toList := by
  have hk : (r.keys node).filter (·.admits options) =
      ((r.find? node options).map Prod.fst).toList := by
    rw [← find?_getD]
    exact (h.distinct_getD node).filter_keys options
  rw [replay_eq, List.filter_flatMap, ← flatMap_filter (p := (· == node)) ?_ r.order]
  · rw [List.filter_beq, h.nodup.count]
    by_cases hm : node ∈ r.order
    · simp only [hm, if_true, List.replicate_one, List.flatMap_singleton, List.filter_map,
        Function.comp_def, beq_self_eq_true, Bool.true_and, hk]
      cases r.find? node options <;> rfl
    · have hn : r.find? node options = none := by
        rw [h.listed, Option.not_isSome_iff_eq_none] at hm
        simp [find?, hm]
      simp [hm, hn]
  · intro n hn
    simp [List.filter_map, Function.comp_def, hn]

/-- After any operations, an entry is there if the last operation on it was an insert. It has the
callback that was given last and the options that it came with, and operations answer according to
it. A provider hears of every entry once, node by node as the nodes came, and within a node as the
entries came. -/
theorem registry_from_operations (ops : List (Operation κ)) :
    let r := build ops
    (∀ node options, r.contains node options = present node options ops ∧
      (recorded? node options ops).isSome = present node options ops ∧
      r.find? node options = recorded? node options ops ∧
      r.callback? node options = latest? node options ops) ∧
    (∀ o : Operation κ, o.outcome r = match o with
      | .insert node options _ => .inserted (present node options ops)
      | .remove node options => .removed ((recorded? node options ops).map Prod.fst)) ∧
    (∀ node options,
      r.replay.filter (fun entry => entry.1 == node && Key.admits ⟨entry.2⟩ options) =
        ((recorded? node options ops).map fun (key, _) => (node, key.options)).toList) ∧
    r.replay.Pairwise (Precedes ops) := by
  intro r
  have hf : ∀ node options, r.find? node options = recorded? node options ops :=
    fun node options => find?_build node options ops
  refine ⟨fun node options => ⟨contains_build .., recorded?_isSome .., hf .., ?_⟩, fun o => ?_,
    fun node options => ?_, replay_ordered ops⟩
  · exact (congrArg (Option.map Prod.snd) (hf node options)).trans (recorded?_callback ..)
  · cases o with
    | insert node options callback => exact congrArg Outcome.inserted (contains_build ..)
    | remove node options => simp only [Operation.outcome, hf]
  · rw [← hf]
    exact (sound_build ops).filter_replay node options

/-- A node that comes back goes to the end, and its key is spelled as it is then. -/
example : replay (build [.insert "a" (some .empty) (), .insert "b" none (), .insert "a" none (),
      .remove "a" none, .insert "a" none ()]) = [("b", none), ("a", none)] := rfl

end Registry
end MediaLink
