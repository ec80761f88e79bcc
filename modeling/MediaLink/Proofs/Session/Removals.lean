import MediaLink.Proofs.Session.Mirror
import MediaLink.Proofs.Subscription.Chronicle

/-! A removal names a subscription as it was first added, however it was spelled since. -/
namespace MediaLink

/-- What a call does to the registry of the provider that hears it. -/
def Call.operation? : Call → Option (Registry.Operation Unit)
  | .add _ node options => some (.insert node options ())
  | .remove _ node options => some (.remove node options)
  | .connect _ | .disconnect _ => none

/-- The options of an addition on an entry. -/
def Call.addition? (node : String) (options : Option Payload) : Call → Option (Option Payload)
  | .add _ n given => if n = node ∧ Key.same ⟨given⟩ ⟨options⟩ then some given else none
  | _ => none

namespace Registry

variable {κ : Type} {r : Registry κ} {node : String} {options : Option Payload} {key : Key}
  {callback : κ} {ops : List (Operation κ)}

/-- The stored options find the entry that they are stored with. -/
theorem find?_stored (h : r.find? node options = some (key, callback)) :
    r.find? node key.options = some (key, callback) := by
  obtain ⟨s, hs, hf⟩ := Option.bind_eq_some_iff.mp h
  rw [find?_eq hs, EntrySet.find?_stored hf]

/-- The stored options are those of the insert that made the entry, which was not removed since. -/
theorem recorded?_opened (h : recorded? node options ops = some (key, callback)) :
    ∃ earlier given later, ops = earlier ++ .insert node key.options given :: later ∧
      present node options earlier = false ∧
      ∀ o ∈ later, o.concerns node options → o.callback?.isSome := by
  induction ops using List.reverseRecOn generalizing callback with
  | nil => cases h
  | append_singleton ops o ih =>
    rw [recorded?_snoc] at h
    by_cases hc : o.concerns node options
    · obtain ⟨given, ho, he⟩ := Option.map_eq_some_iff.mp (if_pos hc ▸ h)
      cases hr : recorded? node options ops with
      | none =>
        obtain ⟨n, options', c⟩ | _ := o
        · obtain ⟨rfl, -⟩ : n = node ∧ _ := by simpa [Operation.concerns, Operation.node] using hc
          have hp : present n options ops = false := by rw [← recorded?_isSome, hr]; rfl
          simp only [hr, Prod.mk.injEq] at he
          obtain ⟨rfl, rfl⟩ := he
          exact ⟨ops, c, [], rfl, hp, by simp⟩
        · cases ho
      | some entry =>
        simp only [hr, Prod.mk.injEq] at he
        obtain ⟨rfl, rfl⟩ := he
        obtain ⟨earlier, first, later, rfl, hp, hl⟩ := ih hr
        refine ⟨earlier, first, later ++ [o], by simp, hp, fun x hx hxc => ?_⟩
        rcases List.mem_append.mp hx with hx | hx
        · exact hl x hx hxc
        · rw [List.mem_singleton.mp hx, ho]
          rfl
    · obtain ⟨earlier, first, later, rfl, hp, hl⟩ := ih (if_neg hc ▸ h)
      refine ⟨earlier, first, later ++ [o], by simp, hp, fun x hx hxc => ?_⟩
      rcases List.mem_append.mp hx with hx | hx
      · exact hl x hx hxc
      · exact absurd (List.mem_singleton.mp hx ▸ hxc) hc

end Registry
namespace Act

variable {κ : Type}

def IsRemoval : Act κ → Prop
  | .call _ (.remove ..) _ => True
  | _ => False

theorem IsReport.not_removal {a : Act κ} (h : a.IsReport) : ¬ a.IsRemoval := by
  cases a <;> simp_all [IsReport, IsRemoval]

/-- What is heard of an act that is no removal is an addition. -/
theorem edit?_addition {a : Act κ} (h : ¬ a.IsRemoval) {token : Token} {edit : Provider × Call}
    (he : a.edit? token = some edit) : ∃ node options, edit.2 = .add token node options := by
  simp only [edit?] at he
  split at he
  · split at he
    · rename_i ht
      cases he
      exact ⟨_, _, by rw [ht]⟩
    · cases he
  · exact absurd trivial h
  · cases he

end Act

namespace World

variable {κ : Type} {ds : List Deed} {u v w : World κ} {token : Token}
  {edits news : List (Provider × Call)} {node : String} {options : Option Payload}

/-- What calls do to the registry of a provider that hears them. -/
def operations (edits : List (Provider × Call)) : List (Registry.Operation Unit) :=
  edits.filterMap (·.2.operation?)

/-- The options of the last addition on an entry. -/
def lastAddition? (node : String) (options : Option Payload) (edits : List (Provider × Call)) :
    Option (Option Payload) :=
  (edits.filterMap (·.2.addition? node options)).getLast?

theorem mirror_eq (token : Token) (w : World κ) :
    w.mirror token = .build (operations (w.edits token)) := by
  rw [mirror, Registry.build, operations, List.foldl_filterMap]
  congr 1
  funext r edit
  cases edit.2 <;> rfl

/-- A removal has the options that are stored when it is heard. -/
def Named (token : Token) (edits : List (Provider × Call)) : Prop :=
  ∀ i p node options, edits[i]? = some (p, .remove token node options) →
    Registry.recorded? node options (operations (edits.take i)) = some (⟨options⟩, ())

theorem Named.append (h : Named token edits)
    (hn : ∀ edit ∈ news, ∃ node options, edit.2 = .add token node options) :
    Named token (edits ++ news) := by
  intro i p node options hi
  rw [List.getElem?_append] at hi
  split at hi
  · rw [List.take_append_of_le_length (by omega)]
    exact h i p node options hi
  · obtain ⟨_, _, he⟩ := hn _ (List.mem_of_getElem? hi)
    cases he

theorem Named.remove (h : Named token edits) (p : Provider)
    (hr : Registry.recorded? node options (operations edits) = some (⟨options⟩, ())) :
    Named token (edits ++ [(p, .remove token node options)]) := by
  intro i q n o hi
  rw [List.getElem?_append] at hi
  split at hi
  · rw [List.take_append_of_le_length (by omega)]
    exact h i q n o hi
  · obtain ⟨hz, he⟩ := List.getElem?_eq_some_iff.mp hi
    have hl : i = edits.length := by
      rw [List.length_singleton] at hz
      omega
    subst hl
    simp only [List.getElem_singleton, Prod.mk.injEq, Call.remove.injEq] at he
    obtain ⟨-, -, rfl, rfl⟩ := he
    rwa [List.take_left']
    rfl

theorem Named.acts (h : Named token (u.edits token)) (acts : List (Act κ))
    (hh : v.history = acts ++ u.history) (ha : ∀ a ∈ acts, ¬ a.IsRemoval) :
    Named token (v.edits token) := by
  rw [edits, recorded_append hh, ← edits]
  refine h.append fun edit he => ?_
  obtain ⟨a, hm, hae⟩ := List.mem_filterMap.mp (List.mem_reverse.mp he)
  exact Act.edit?_addition (ha a hm) hae

/-- The provider of a connected session has stored the options that the session has. -/
theorem Mirrored.recorded (h : w.Mirrored) (hp : w.session.phase = .connected)
    (ha : w.session.attempt = some token) {key : Key} {callback : κ}
    (hf : w.session.subscriptions.find? node options = some (key, callback)) :
    Registry.recorded? node key.options (operations (w.edits token)) = some (key, ()) := by
  rw [← Registry.find?_build, ← mirror_eq, (h.connected hp token ha).1, Registry.find?_outline,
    Registry.find?_stored hf]
  rfl

theorem named_erase (h : u.Mirrored) (hn : Named token (u.edits token)) {key : Key}
    {callback : κ} (failure : Option RemoteFault) (subscriptions : Registry κ)
    (hf : u.session.subscriptions.find? node options = some (key, callback)) :
    Named token (((u.withSubscriptions subscriptions).tell
      (.remove · node key.options) failure).edits token) := by
  have hh : ((u.withSubscriptions subscriptions).tell (.remove · node key.options)
      failure).history = telling (.remove · node key.options) failure u.session ++ u.history := rfl
  rw [edits, recorded_append hh, ← edits]
  cases hl : u.session.live? with
  | none => simpa [telling, hl] using hn
  | some live =>
    obtain ⟨p, t⟩ := live
    obtain ⟨hp, -, ha⟩ := Session.live?_eq_some.mp hl
    by_cases ht : t = token
    · subst ht
      simpa [telling, hl, Act.edit?] using hn.remove p (h.recorded hp ha hf)
    · simpa [telling, hl, Act.edit?, ht] using hn

theorem named_move (hm : Move ds u v) (h : u.Mirrored) (hn : Named token (u.edits token)) :
    Named token (v.edits token) := by
  have hunbind : ∀ a ∈ unbinding u.session, ¬ a.IsRemoval := by
    intro a ha
    obtain ⟨_, rfl⟩ := mem_unbinding ha
    exact id
  cases hm with
  | aside | hear | close | ignore => exact hn
  | report _ ha => exact hn.acts [_] rfl (by simpa using ha.not_removal)
  | insert _ node options callback failure =>
    refine hn.acts (telling (.add · node options) failure u.session) rfl fun a ha => ?_
    obtain ⟨_, _, rfl⟩ := mem_telling ha
    exact id
  | erase failure hf => exact named_erase h hn failure _ hf
  | begin granted => exact hn.acts [_, _] rfl (by simp [Act.IsRemoval])
  | letGo =>
    rw [release_eq]
    exact hn.acts _ rfl hunbind
  | leave _ failure =>
    exact hn.acts (unbinding u.session ++ (farewell failure u.session ++
      [.tornDown u.session.phase])) (by simp)
      (forall_leaving (fun _ => id) (fun _ _ => id) id)
  | abort =>
    rw [failAttempt_eq]
    exact hn.acts (_ :: unbinding u.session) rfl (List.forall_mem_cons.mpr ⟨id, hunbind⟩)
  | fail =>
    rw [failAttempt_eq]
    exact hn.acts (_ :: unbinding u.session) rfl (List.forall_mem_cons.mpr ⟨id, hunbind⟩)
  | suspend => exact hn.acts [_] rfl (by simp [Act.IsRemoval])
  | reach => exact hn.acts [_] rfl (by simp [Act.IsRemoval])
  | restore => exact hn.acts [_, _] rfl (by simp [Act.IsRemoval])
  | @accept _ e rest sink reply token news t =>
    refine hn.acts (.connection .connected u.session.attempt ::
      ((replayed t (u.session.complete reply.root token reply.extras)).reverse ++
        [.accepted sink reply])) (by simp) ?_
    exact List.forall_mem_cons.mpr ⟨id, forall_accepting (fun _ _ _ _ _ => id) id⟩

theorem named_reachable (setting : Setting) (steps : List (Step κ)) (token : Token) :
    Named token (((create setting).run steps).edits token) := by
  have h : ((create setting).run steps).Sound ∧ ((create setting).run steps).Mirrored ∧
      Named token (((create setting).run steps).edits token) := by
    apply run_keep (P := fun w => w.Sound ∧ w.Mirrored ∧ Named token (w.edits token))
    · exact ⟨sound_create setting, mirrored_create setting, fun _ _ _ _ hi => by cases hi⟩
    · intro w loop handles h
      exact ⟨sound_frame loop handles h.1, mirrored_frame loop handles h.2.1, h.2.2⟩
    · intro ds u v hm h
      exact ⟨sound_move hm h.1, mirrored_move hm h.1 h.2.1, named_move hm h.2.1 h.2.2⟩
  exact h.2.2

theorem token_of_edit {edit : Provider × Call} (h : edit ∈ w.edits token) :
    edit.2.token = token := by
  obtain ⟨a, -, ha⟩ := List.mem_filterMap.mp (List.mem_reverse.mp h)
  simp only [Act.edit?] at ha
  split at ha
  · split at ha <;> cases ha
    assumption
  · split at ha <;> cases ha
    assumption
  · cases ha

/-- Calls of one attempt that leave an entry under these options have an addition that made it. -/
theorem opening (ht : ∀ edit ∈ edits, edit.2.token = token)
    (h : Registry.recorded? node options (operations edits) = some (⟨options⟩, ())) :
    ∃ earlier p later, edits = earlier ++ (p, .add token node options) :: later ∧
      Registry.present node options (operations earlier) = false ∧
      ∀ q given, (q, .remove token node given) ∈ later → Key.same ⟨given⟩ ⟨options⟩ = false := by
  obtain ⟨earlier, made, later, hops, hp, hl⟩ := Registry.recorded?_opened h
  obtain ⟨first, rest, rfl, rfl, hr⟩ := List.filterMap_eq_append_iff.mp hops
  obtain ⟨skipped, ⟨p, call⟩, last, rfl, hs, hc, rfl⟩ := List.filterMap_eq_cons_iff.mp hr
  have hcall : call = .add token node options := by
    have htoken := ht (p, call) (by simp)
    cases call <;> simp_all [Call.operation?, Call.token]
  have hskipped : operations (first ++ skipped) = operations first := by
    rw [operations, List.filterMap_append, List.filterMap_eq_nil_iff.mpr hs, List.append_nil,
      operations]
  refine ⟨first ++ skipped, p, last, by simp [hcall], by rwa [hskipped], fun q given hq => ?_⟩
  rw [Bool.eq_false_iff]
  intro hsame
  have hm : .remove node given ∈ last.filterMap (·.2.operation?) :=
    List.mem_filterMap.mpr ⟨_, hq, rfl⟩
  have hi := hl _ hm (Bool.and_eq_true_iff.mpr ⟨beq_self_eq_true node, hsame⟩)
  cases hi

/-- The addition that made an entry counts until the entry is added again. -/
theorem lastAddition?_opening (token : Token) (node : String) (options : Option Payload)
    (p : Provider) (earlier later : List (Provider × Call)) :
    lastAddition? node options (earlier ++ (p, .add token node options) :: later) =
      some ((lastAddition? node options later).getD options) := by
  have hself : Call.addition? node options (.add token node options) = some options := by
    simp [Call.addition?, Key.same_refl]
  simp [lastAddition?, hself, List.getLast?_append, List.getLast?_cons]

/-- A removal is spelled like the addition that made the entry, the first since the entry was
absent, with no removal since. The last addition is spelled differently if the entry, while it was
there, was added again under options that are equal and not identical. -/
theorem removal_names_opening_reachable (setting : Setting) (steps : List (Step κ))
    (token : Token) (before after : List (Provider × Call)) (p : Provider) (node : String)
    (options : Option Payload)
    (h : ((create setting).run steps).edits token =
      before ++ (p, .remove token node options) :: after) :
    ∃ earlier q later, before = earlier ++ (q, .add token node options) :: later ∧
      Registry.present node options (operations earlier) = false ∧
      (∀ r given, (r, .remove token node given) ∈ later →
        Key.same ⟨given⟩ ⟨options⟩ = false) ∧
      lastAddition? node options before =
        some ((lastAddition? node options later).getD options) := by
  have hn := named_reachable setting steps token before.length p node options (by simp [h])
  rw [h, List.take_left'] at hn
  · have ht : ∀ edit ∈ before, edit.2.token = token := fun edit he =>
      token_of_edit (h ▸ List.mem_append_left _ he)
    obtain ⟨earlier, q, later, rfl, hp, hl⟩ := opening ht hn
    exact ⟨earlier, q, later, rfl, hp, hl, lastAddition?_opening ..⟩
  · rfl

/-- A subscription is made offline, spelled anew and removed under the first spelling. -/
theorem removal_names_opening_respelled :
    let w : World Unit := (create ⟨⟨"package", "class"⟩, "client", none⟩).run [
      .subscribe .prompt "node" (some .empty) (), .connect .prompt, .turn .prompt,
      .finish .prompt, .turn .prompt, .subscribe .prompt "node" none (),
      .unsubscribe .prompt "node" none]
    w.edits ⟨1⟩ = [(⟨0⟩, .add ⟨1⟩ "node" (some .empty)), (⟨0⟩, .add ⟨1⟩ "node" none),
      (⟨0⟩, .remove ⟨1⟩ "node" (some .empty))] ∧
    ∃ earlier q later, [(⟨0⟩, .add ⟨1⟩ "node" (some .empty)), (⟨0⟩, .add ⟨1⟩ "node" none)] =
        earlier ++ (q, .add ⟨1⟩ "node" (some .empty)) :: later ∧
      Registry.present "node" (some .empty) (operations earlier) = false ∧
      (∀ r given, (r, .remove ⟨1⟩ "node" given) ∈ later →
        Key.same ⟨given⟩ ⟨some .empty⟩ = false) ∧
      lastAddition? "node" (some .empty) [(⟨0⟩, .add ⟨1⟩ "node" (some .empty)),
          (⟨0⟩, .add ⟨1⟩ "node" none)] =
        some ((lastAddition? "node" (some .empty) later).getD (some .empty)) :=
  ⟨rfl, removal_names_opening_reachable (κ := Unit) ⟨⟨"package", "class"⟩, "client", none⟩ [
    .subscribe .prompt "node" (some .empty) (), .connect .prompt, .turn .prompt,
    .finish .prompt, .turn .prompt, .subscribe .prompt "node" none (),
    .unsubscribe .prompt "node" none] ⟨1⟩
    [(⟨0⟩, .add ⟨1⟩ "node" (some .empty)), (⟨0⟩, .add ⟨1⟩ "node" none)] [] ⟨0⟩ "node"
    (some .empty) rfl⟩

/-- A removal can differ from the last addition: absent options were spelled out as empty ones. -/
theorem removal_misnames_last_addition :
    ¬ ∀ (steps : List (Step Unit)) (before after : List (Provider × Call)) (p : Provider)
      (options : Option Payload),
      ((create ⟨⟨"package", "class"⟩, "client", none⟩).run steps).edits ⟨1⟩ =
        before ++ (p, .remove ⟨1⟩ "node" options) :: after →
      lastAddition? "node" options before = some options := by
  intro h
  have hl := h [.connect .prompt, .turn .prompt, .finish .prompt, .turn .prompt,
    .subscribe .prompt "node" none (), .subscribe .prompt "node" (some .empty) (),
    .unsubscribe .prompt "node" (some .empty)]
    [(⟨0⟩, .add ⟨1⟩ "node" none), (⟨0⟩, .add ⟨1⟩ "node" (some .empty))] [] ⟨0⟩ none rfl
  cases hl

end World
end MediaLink
