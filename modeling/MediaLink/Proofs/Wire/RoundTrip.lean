import MediaLink.Identity
import MediaLink.Item
import MediaLink.Proofs.Wire.Formats
import MediaLink.Reply

/-! What is written of a name, an item or a reply is read back as it was. -/
namespace MediaLink

open Json

namespace SessionToken

def format : Format SessionToken where
  toTree := toTree
  read := read
  Made token := ∃ value, make value = .ok token
  Valid token := token.value ≠ ""
  payloads _ := []

theorem make_eq_ok {value : String} {token : SessionToken} :
    make value = .ok token ↔ value ≠ "" ∧ token = ⟨value⟩ := by
  by_cases h : value = ""
  · simp [make, h]
  · simp [make, h, eq_comm]

theorem format_faithful : format.Faithful where
  valid token := by
    rintro ⟨value, h⟩
    obtain ⟨hv, rfl⟩ := make_eq_ok.mp h
    exact hv
  plain _ _ _ := trivial
  back token depth := by
    rintro ⟨value, h⟩ -
    obtain ⟨-, rfl⟩ := make_eq_ok.mp h
    have hr : Reader.text depth (toTree ⟨value⟩) = .ok value := rfl
    exact Reader.checked_eq_ok.mpr ⟨value, hr, h⟩
  sound t depth token _ h := by
    obtain ⟨value, -, hm⟩ := Reader.checked_eq_ok.mp h
    exact ⟨⟨value, hm⟩, Nat.zero_le _⟩

end SessionToken

namespace Component

def format : Format Component where
  toTree := toTree
  read := read
  Made c := ∃ package className, make package className = .ok c
  Valid c := c.package ≠ "" ∧ c.className ≠ ""
  payloads _ := []

theorem make_eq_ok {package className : String} {c : Component} :
    make package className = .ok c ↔
      (package ≠ "" ∧ className ≠ "") ∧ c = ⟨package, className⟩ := by
  by_cases h : package = "" ∨ className = ""
  · have hn : ¬ (package ≠ "" ∧ className ≠ "") := by tauto
    simp [make, h, hn]
  · simp [make, not_or.mp h, eq_comm]

theorem shape_toTree (c : Component) (n : Nat) :
    shape.read (n + 1) c.toTree = .ok ⟨some c.package, some c.className⟩ := rfl

theorem read_eq_ok {depth : Nat} {t : Tree} {c : Component} : read depth t = .ok c ↔
    ∃ d, shape.read depth t = .ok d ∧ make (d.package.getD "") (d.className.getD "") = .ok c :=
  Reader.checked_eq_ok

theorem keeps_shape : shape.Keeps fun _ _ => True := fun _ _ _ _ _ _ _ _ _ => trivial

theorem format_faithful : format.Faithful where
  valid c := by
    rintro ⟨package, className, h⟩
    obtain ⟨hv, rfl⟩ := make_eq_ok.mp h
    exact hv
  plain _ _ _ := ⟨rfl, rfl, trivial, rfl, trivial, trivial⟩
  back c depth := by
    rintro ⟨package, className, h⟩ hd
    obtain ⟨-, rfl⟩ := make_eq_ok.mp h
    obtain ⟨n, rfl, -⟩ := Tree.exists_depth hd
    exact read_eq_ok.mpr ⟨_, shape_toTree ⟨package, className⟩ n, h⟩
  sound t depth c ht h := by
    obtain ⟨draft, hr, hm⟩ := read_eq_ok.mp h
    obtain ⟨n, rfl, -⟩ := keeps_shape.read (fun _ => trivial) ht hr
    exact ⟨⟨_, _, hm⟩, Tree.nesting_record_le (by simp [Tree.nesting])⟩

end Component

namespace Flags

def format : Format Flags where
  toTree := toTree
  read := read
  Made _ := True
  Valid _ := True
  payloads _ := []

theorem read_toTree (f : Flags) (depth : Nat) : read depth f.toTree = .ok f := by
  have hlt := f.bits.toNat_lt
  have hw : Reader.word depth f.toTree = .ok f.bits := by
    simp only [toTree, Reader.word]
    rw [if_pos ⟨by omega, by simp only [Nat.pow_eq]; omega⟩]
    simp
  rw [read, hw]
  rfl

theorem plain_toTree (f : Flags) : f.toTree.Plain := by
  have hlt := f.bits.toNat_lt
  rw [toTree, Tree.Plain]
  generalize f.bits.toNat = n at hlt ⊢
  simp only [Number.Fits, Nat.pow_eq]
  omega

theorem format_faithful : format.Faithful where
  valid _ _ := trivial
  plain f _ _ := f.plain_toTree
  back f depth _ _ := by
    simp only [format]
    exact f.read_toTree depth
  sound _ _ _ _ _ := ⟨trivial, Nat.zero_le _⟩

end Flags

namespace Payload

def format : Format Payload where
  toTree := toTree
  read := read
  Made p := ∃ ws, build ws = p
  Valid _ := True
  payloads p := [p]

theorem format_faithful : format.Faithful where
  valid _ _ := trivial
  plain p := by
    rintro ⟨ws, rfl⟩ hi
    exact (sound_build ws).plain (hi _ List.mem_cons_self)
  back p depth := by
    rintro ⟨ws, rfl⟩ hd
    exact (sound_build ws).read_toTree hd
  sound t depth p ht h := by
    obtain ⟨hs, hd⟩ := read_sound ht h
    exact ⟨hs.exists_build, hd⟩

end Payload

namespace Description

variable {α : Type} {d : Description} {n : Nat}

/-- A description is made with any id, and then every other field can be set. -/
def format : Format Description where
  toTree := toTree
  read := read
  Made d := ∀ p ∈ d.extras, Payload.format.Made p
  Valid _ := True
  payloads d := d.extras.toList

theorem byName_optional {name : String} {tree : α → Tree} {reader : Reader α}
    {get : Draft → Option (Option α)} {set : Draft → Option α → Draft} {closed : Bool}
    {rest : List (Option String × Tree)} {draft : Draft} (draft' : Draft) (o : Option α)
    (hf : shape.fields.find? (·.name == name) = some (optionalField name reader get set))
    (hu : get draft = none)
    (hr : ∀ a ∈ o, tree a ≠ .null ∧ reader n (tree a) = .ok a)
    (hd : draft' = o.elim draft fun a => set draft (some a)) :
    shape.byName n closed (optional name tree o ++ rest) draft =
      shape.byName n closed rest draft' := by
  subst hd
  cases o with
  | none => rfl
  | some a =>
    obtain ⟨hn, ha⟩ := hr a rfl
    have ho := Reader.option_back hn ha
    exact Shape.byName_field _ hf (by simp [optionalField, hu])
      (by simp [optionalField, ho, Except.map])

theorem text_back (n : Nat) (o : Option String) :
    ∀ s ∈ o, textTree s ≠ .null ∧ Reader.text n (textTree s) = .ok s :=
  fun _ _ => ⟨nofun, rfl⟩

def members (d : Description) : List (Option String × Tree) :=
  (some "mediaId", textTree d.mediaId) :: (optional "title" textTree d.title ++
    (optional "subtitle" textTree d.subtitle ++ (optional "description" textTree d.description ++
    (optional "iconUri" textTree d.iconUri ++ (optional "mediaUri" textTree d.mediaUri ++
    (optional "extras" Payload.toTree d.extras ++ []))))))

theorem toTree_eq (d : Description) : d.toTree = .record d.members true := by
  simp [toTree, members]

/-- Every member is a text or the extras. -/
theorem forall_members {Q : Option String × Tree → Prop}
    (ht : ∀ key s, Q (some key, textTree s)) (he : ∀ p ∈ d.extras, Q (some "extras", p.toTree)) :
    ∀ m ∈ d.members, Q m := by
  have hoptional {β : Type} {key : String} {tree : β → Tree} {o : Option β}
      (h : ∀ b ∈ o, Q (some key, tree b)) : ∀ m ∈ optional key tree o, Q m := by
    cases o with
    | none => nofun
    | some b => exact List.forall_mem_singleton.mpr (h b rfl)
  simp only [members, List.forall_mem_append, List.forall_mem_cons]
  exact ⟨ht _ _, hoptional fun s _ => ht _ s, hoptional fun s _ => ht _ s,
    hoptional fun s _ => ht _ s, hoptional fun s _ => ht _ s, hoptional fun s _ => ht _ s,
    hoptional he, nofun⟩

/-- Fields are left out or read one after the other. -/
theorem shape_toTree (h : ∀ p ∈ d.extras, Payload.read n p.toTree = .ok p) :
    shape.read (n + 1) d.toTree = .ok ⟨some d.mediaId, d.title.map some, d.subtitle.map some,
      d.description.map some, d.iconUri.map some, d.mediaUri.map some, d.extras.map some⟩ := by
  have hextras : ∀ p ∈ d.extras, p.toTree ≠ .null ∧ Payload.read n p.toTree = .ok p :=
    fun p hp => ⟨nofun, h p hp⟩
  rw [toTree_eq, members, Shape.read, Shape.byName_field _ rfl rfl rfl,
    byName_optional ⟨some d.mediaId, d.title.map some, none, none, none, none, none⟩ d.title rfl
      rfl (text_back n _) (by cases d.title <;> rfl),
    byName_optional ⟨some d.mediaId, d.title.map some, d.subtitle.map some, none, none, none,
      none⟩ d.subtitle rfl rfl (text_back n _) (by cases d.subtitle <;> rfl),
    byName_optional ⟨some d.mediaId, d.title.map some, d.subtitle.map some,
      d.description.map some, none, none, none⟩ d.description rfl rfl (text_back n _)
      (by cases d.description <;> rfl),
    byName_optional ⟨some d.mediaId, d.title.map some, d.subtitle.map some,
      d.description.map some, d.iconUri.map some, none, none⟩ d.iconUri rfl rfl (text_back n _)
      (by cases d.iconUri <;> rfl),
    byName_optional ⟨some d.mediaId, d.title.map some, d.subtitle.map some,
      d.description.map some, d.iconUri.map some, d.mediaUri.map some, none⟩ d.mediaUri rfl rfl
      (text_back n _) (by cases d.mediaUri <;> rfl),
    byName_optional ⟨some d.mediaId, d.title.map some, d.subtitle.map some,
      d.description.map some, d.iconUri.map some, d.mediaUri.map some, d.extras.map some⟩ d.extras
      rfl rfl hextras (by cases d.extras <;> rfl)]
  exact Shape.byName_end rfl

/-- Extras that were read can be made, and they nest no deeper than they may. -/
def Draft.Bounded (n : Nat) (draft : Draft) : Prop :=
  ∀ p ∈ draft.extras.join, Payload.format.Made p ∧ p.toTree.nesting ≤ n

theorem bounded_shape : shape.Keeps Draft.Bounded := by
  simp only [Shape.Keeps, shape, List.forall_mem_cons]
  refine ⟨.of_map fun _ _ _ _ _ _ => id, .of_map fun _ _ _ _ _ _ => id,
    .of_map fun _ _ _ _ _ _ => id, .of_map fun _ _ _ _ _ _ => id,
    .of_map fun _ _ _ _ _ _ => id, .of_map fun _ _ _ _ _ _ => id, ?_, nofun⟩
  exact .of_map fun _ _ _ _ ht ho _ => Payload.format_faithful.option ht ho

theorem format_faithful : format.Faithful where
  valid _ _ := trivial
  plain d hm hi := by
    have hp : ∀ p ∈ d.extras, p.toTree.Plain := fun p hp =>
      Payload.format_faithful.plain p (hm p hp) fun q hq => by
        obtain rfl : q = p := List.mem_singleton.mp hq
        exact hi q (Option.mem_toList.mpr hp)
    have hmembers : ∀ m ∈ d.members, m.1.isSome ∧ m.2.Plain :=
      forall_members (fun _ _ => ⟨rfl, trivial⟩) fun p hmem => ⟨rfl, hp p hmem⟩
    simp only [format, toTree_eq]
    exact ⟨rfl, Tree.membersPlain_iff.mpr hmembers⟩
  back d depth hm hd := by
    simp only [format, toTree_eq] at hd
    obtain ⟨n, rfl, hn⟩ := Tree.exists_depth hd
    have hextras : ∀ p ∈ d.extras, Payload.read n p.toTree = .ok p := fun p hp =>
      Payload.format_faithful.back p n (hm p hp)
        (hn (some "extras", p.toTree) (by simp [members, optional, Option.mem_def.mp hp]))
    have hjoin {β : Type} (o : Option β) : (o.map some).join = o := by cases o <;> rfl
    exact map_eq_ok.mpr ⟨_, shape_toTree hextras, by simp [Draft.finish, hjoin]⟩
  sound t depth d ht h := by
    obtain ⟨draft, hr, rfl⟩ := map_eq_ok.mp h
    obtain ⟨n, rfl, hb⟩ := bounded_shape.read (fun _ => nofun) ht hr
    refine ⟨fun p hp => (hb p hp).1, ?_⟩
    simp only [format, toTree_eq]
    refine Tree.nesting_record_le (forall_members (fun _ _ => Nat.zero_le _) fun p hp => ?_)
    exact (hb p hp).2

end Description

namespace Item

variable {i : Item} {n : Nat}

/-- An item is made of any description that was made and of any flags, also unknown ones. -/
def format : Format Item where
  toTree := toTree
  read := read
  Made i := ∃ d flags, Description.format.Made d ∧ make d flags = .ok i
  Valid i := i.mediaId ≠ ""
  payloads i := Description.format.payloads i.description

theorem make_eq_ok {d : Description} {flags : Flags} :
    make d flags = .ok i ↔ d.mediaId ≠ "" ∧ i = ⟨d, flags⟩ := by
  by_cases h : d.mediaId = ""
  · simp [make, h]
  · simp [make, h, eq_comm]

theorem shape_members {d : Description} {flags : Flags} {t u : Tree}
    (hd : Description.read n t = .ok d) (hf : Flags.read n u = .ok flags) :
    shape.read (n + 1) (.record [(some "description", t), (some "flags", u)] true) =
      .ok ⟨some d, some flags⟩ := by
  rw [Shape.read,
    Shape.byName_field ⟨some d, none⟩ rfl rfl (by exact map_eq_ok.mpr ⟨d, hd, rfl⟩),
    Shape.byName_field ⟨some d, some flags⟩ rfl rfl (by exact map_eq_ok.mpr ⟨flags, hf, rfl⟩)]
  exact Shape.byName_end rfl

/-- A description that was read can be made, and it nests no deeper than it may. -/
def Draft.Bounded (n : Nat) (draft : Draft) : Prop :=
  ∀ d ∈ draft.description, Description.format.Made d ∧ d.toTree.nesting ≤ n

theorem bounded_shape : shape.Keeps Draft.Bounded := by
  simp only [Shape.Keeps, shape, List.forall_mem_cons]
  refine ⟨?_, .of_map fun _ _ _ _ _ _ => id, nofun⟩
  refine .of_map fun n t draft d ht hd _ d' hd' => ?_
  obtain rfl : d = d' := Option.some.inj hd'
  exact Description.format_faithful.sound t n d ht hd

theorem read_eq_ok {depth : Nat} {t : Tree} : read depth t = .ok i ↔
    ∃ draft, shape.read depth t = .ok draft ∧
      make (draft.description.getD ⟨"", none, none, none, none, none, none⟩)
        (draft.flags.getD .none) = .ok i :=
  Reader.checked_eq_ok

theorem format_faithful : format.Faithful where
  valid i := by
    rintro ⟨d, flags, -, h⟩
    obtain ⟨hd, rfl⟩ := make_eq_ok.mp h
    exact hd
  plain i := by
    rintro ⟨d, flags, hm, h⟩ hi
    obtain ⟨-, rfl⟩ := make_eq_ok.mp h
    exact ⟨rfl, rfl, Description.format_faithful.plain d hm hi, rfl, flags.plain_toTree, trivial⟩
  back i depth := by
    rintro ⟨d, flags, hm, h⟩ hd
    obtain ⟨hid, rfl⟩ := make_eq_ok.mp h
    obtain ⟨n, rfl, hn⟩ := Tree.exists_depth hd
    have hback := Description.format_faithful.back d n hm (hn _ List.mem_cons_self)
    exact read_eq_ok.mpr ⟨_, shape_members hback (flags.read_toTree n), h⟩
  sound t depth i ht h := by
    obtain ⟨draft, hr, hm⟩ := read_eq_ok.mp h
    obtain ⟨n, rfl, hb⟩ := bounded_shape.read (fun _ => nofun) ht hr
    obtain ⟨hid, rfl⟩ := make_eq_ok.mp hm
    obtain ⟨description, flags⟩ := draft
    cases description with
    | none => exact absurd rfl hid
    | some d =>
      obtain ⟨hd, hn⟩ := hb d rfl
      exact ⟨⟨d, _, hd, hm⟩, Tree.nesting_record_le
        (List.forall_mem_cons.mpr ⟨hn, List.forall_mem_singleton.mpr (Nat.zero_le _)⟩)⟩

end Item

namespace Reply

variable {r : Reply} {n : Nat}

def format : Format Reply where
  toTree := toTree
  read := read
  Made r := ∀ p ∈ r.extras, Payload.format.Made p
  Valid _ := True
  payloads r := r.extras.toList

/-- Extras that are missing are written as null. -/
theorem option_extras (h : ∀ p ∈ r.extras, Payload.read n p.toTree = .ok p) :
    Reader.option Payload.read n ((r.extras.map Payload.toTree).getD .null) = .ok r.extras := by
  cases hr : r.extras with
  | none => rfl
  | some p => exact Reader.option_back (t := p.toTree) nofun (h p hr)

theorem shape_toTree (h : ∀ p ∈ r.extras, Payload.read n p.toTree = .ok p) :
    shape.read (n + 1) r.toTree = .ok ⟨some r.root, some r.sessionToken, some r.extras⟩ := by
  rw [toTree, Shape.read, Shape.byName_field _ rfl rfl rfl, Shape.byName_field _ rfl rfl rfl,
    Shape.byName_field ⟨some r.root, some r.sessionToken, some r.extras⟩ rfl rfl
      (by exact map_eq_ok.mpr ⟨_, option_extras h, rfl⟩)]
  exact Shape.byName_end rfl

def Draft.Bounded (n : Nat) (draft : Draft) : Prop :=
  ∀ p ∈ draft.extras.join, Payload.format.Made p ∧ p.toTree.nesting ≤ n

theorem bounded_shape : shape.Keeps Draft.Bounded := by
  simp only [Shape.Keeps, shape, List.forall_mem_cons]
  refine ⟨.of_map fun _ _ _ _ _ _ => id, .of_map fun _ _ _ _ _ _ => id, ?_, nofun⟩
  exact .of_map fun _ _ _ _ ht ho _ => Payload.format_faithful.option ht ho

theorem format_faithful : format.Faithful where
  valid _ _ := trivial
  plain r hm hi := by
    obtain ⟨root, token, extras⟩ := r
    refine ⟨rfl, rfl, trivial, rfl, trivial, rfl, ?_, trivial⟩
    cases extras with
    | none => trivial
    | some p => exact Payload.format_faithful.plain p (hm p rfl) hi
  back r depth hm hd := by
    obtain ⟨n, rfl, hn⟩ := Tree.exists_depth hd
    have hextras : ∀ p ∈ r.extras, Payload.read n p.toTree = .ok p := fun p hp => by
      have hpn := hn (some "extras", p.toTree) (by simp [Option.mem_def.mp hp])
      exact Payload.format_faithful.back p n (hm p hp) hpn
    exact map_eq_ok.mpr ⟨_, shape_toTree hextras, rfl⟩
  sound t depth r ht h := by
    obtain ⟨draft, hr, rfl⟩ := map_eq_ok.mp h
    obtain ⟨n, rfl, hb⟩ := bounded_shape.read (fun _ => nofun) ht hr
    refine ⟨fun p hp => (hb p hp).1, Tree.nesting_record_le ?_⟩
    refine List.forall_mem_cons.mpr ⟨Nat.zero_le _, List.forall_mem_cons.mpr ⟨Nat.zero_le _, ?_⟩⟩
    refine List.forall_mem_singleton.mpr ?_
    cases he : draft.finish.extras with
    | none => exact Nat.zero_le _
    | some p => exact (hb p he).2

end Reply

/-- Everything that goes over the wire survives the way to text and back. -/
theorem formats_roundTrip :
    SessionToken.format.RoundTrips ∧ Component.format.RoundTrips ∧ Flags.format.RoundTrips ∧
      Description.format.RoundTrips ∧ Item.format.RoundTrips ∧ Item.format.list.RoundTrips ∧
      Payload.format.RoundTrips ∧ Reply.format.RoundTrips :=
  ⟨SessionToken.format_faithful.roundTrips, Component.format_faithful.roundTrips,
    Flags.format_faithful.roundTrips, Description.format_faithful.roundTrips,
    Item.format_faithful.roundTrips, Item.format_faithful.list.roundTrips,
    Payload.format_faithful.roundTrips, Reply.format_faithful.roundTrips⟩

/-- Unknown flags come back, and extras without an entry stay extras. -/
theorem formats_roundTrip_unknown_flags :
    let i : Item := ⟨{ mediaId := "a", extras := some .empty }, ⟨7⟩⟩
    Item.format.ofText (Item.format.toText i) = .ok i := by
  intro i
  have hm : Item.format.Made i := by
    refine ⟨i.description, i.flags, fun p hp => ⟨[], ?_⟩, rfl⟩
    exact Option.some.inj hp
  have hi : Item.format.Integral i := fun p hp => by
    obtain rfl := List.mem_singleton.mp hp
    trivial
  exact formats_roundTrip.2.2.2.2.1.made i hm hi (by decide)

end MediaLink
