import SurfaceLoom.Lib.JsonReader
import SurfaceLoom.Lib.OrderedMap

/-! # What a JSON text means

The conditions a strict reader adds to the grammar, told of the tree, and `JSON.parse`, which
adds none: of two properties of one name it keeps the last. -/
namespace SurfaceLoom.Lib.JsonText

/-! ## Conditions on a tree -/

def Literal.numbers : Literal → List NumberText
  | .number n => [n]
  | _ => []

namespace Tree

mutual

/-- The most containers that are open at one point. -/
def height : Tree → Nat
  | literal _ => 0
  | string _ => 0
  | array items => itemsHeight items + 1
  | object members => membersHeight members + 1

def itemsHeight : List Tree → Nat
  | [] => 0
  | t :: rest => max (height t) (itemsHeight rest)

def membersHeight : List (Str × Tree) → Nat
  | [] => 0
  | m :: rest => max (height m.2) (membersHeight rest)

end

mutual

/-- The most containers that a value stands inside of. -/
def reach : Tree → Nat
  | literal _ => 0
  | string _ => 0
  | array items => itemsReach items
  | object members => membersReach members

def itemsReach : List Tree → Nat
  | [] => 0
  | t :: rest => max (reach t + 1) (itemsReach rest)

def membersReach : List (Str × Tree) → Nat
  | [] => 0
  | m :: rest => max (reach m.2 + 1) (membersReach rest)

end

mutual

/-- The numbers of a tree, in order. -/
def numbers : Tree → List NumberText
  | literal l => l.numbers
  | string _ => []
  | array items => itemsNumbers items
  | object members => membersNumbers members

def itemsNumbers : List Tree → List NumberText
  | [] => []
  | t :: rest => numbers t ++ itemsNumbers rest

def membersNumbers : List (Str × Tree) → List NumberText
  | [] => []
  | m :: rest => numbers m.2 ++ membersNumbers rest

end

mutual

/-- No object has two members of one name, however it is written. -/
def Distinct : Tree → Prop
  | literal _ => True
  | string _ => True
  | array items => DistinctItems items
  | object members => (names members).Nodup ∧ DistinctMembers members

def DistinctItems : List Tree → Prop
  | [] => True
  | t :: rest => Distinct t ∧ DistinctItems rest

def DistinctMembers : List (Str × Tree) → Prop
  | [] => True
  | m :: rest => Distinct m.2 ∧ DistinctMembers rest

end

mutual

/-- No string, a name or a value, has a surrogate without its other half. -/
def Paired : Tree → Prop
  | literal _ => True
  | string k => paired k = true
  | array items => PairedItems items
  | object members => PairedMembers members

def PairedItems : List Tree → Prop
  | [] => True
  | t :: rest => Paired t ∧ PairedItems rest

def PairedMembers : List (Str × Tree) → Prop
  | [] => True
  | m :: rest => paired m.1 = true ∧ Paired m.2 ∧ PairedMembers rest

end

end Tree

/-- Strings are paired, names do not repeat, and no container opens inside `limit` others. -/
structure Policy.Strict (p : Policy) (limit : Nat) : Prop where
  room : ∀ depth, p.room depth = decide (depth < limit)
  distinct : p.distinct = true
  allowed : ∀ k, p.allowed k = paired k

variable {p : Policy} {limit : Nat}

theorem add_max_le {n a b : Nat} : n + max a b ≤ limit ↔ n + a ≤ limit ∧ n + b ≤ limit := by
  omega

mutual

theorem Policy.Strict.fits (h : p.Strict limit) : ∀ (t : Tree) {depth : Nat}, depth ≤ limit →
    (p.Fits depth t ↔ depth + t.height ≤ limit ∧ t.Distinct ∧ t.Paired)
  | .literal _, depth, hdepth => by simpa [Policy.Fits, Tree.height, Tree.Distinct, Tree.Paired]
  | .string k, depth, hdepth => by
    simp [Policy.Fits, Tree.height, Tree.Distinct, Tree.Paired, h.allowed, hdepth]
  | .array items, depth, hdepth => by
    simp only [Policy.Fits, h.room, decide_eq_true_eq, Tree.height, Tree.Distinct, Tree.Paired]
    by_cases hroom : depth < limit
    · rw [h.fitsItems items hroom, and_iff_right hroom, Nat.succ_add_eq_add_succ]
    · have hfull : ¬ depth + (Tree.itemsHeight items + 1) ≤ limit := by omega
      rw [iff_false_intro hroom, iff_false_intro hfull, false_and, false_and]
  | .object members, depth, hdepth => by
    simp only [Policy.Fits, h.room, h.distinct, decide_eq_true_eq, forall_const, Tree.height,
      Tree.Distinct, Tree.Paired]
    by_cases hroom : depth < limit
    · rw [h.fitsMembers members hroom, and_iff_right hroom, Nat.succ_add_eq_add_succ,
        and_left_comm, and_assoc]
    · have hfull : ¬ depth + (Tree.membersHeight members + 1) ≤ limit := by omega
      rw [iff_false_intro hroom, iff_false_intro hfull, false_and, false_and]

theorem Policy.Strict.fitsItems (h : p.Strict limit) : ∀ (ts : List Tree) {depth : Nat},
    depth ≤ limit → (p.FitsItems depth ts ↔
      depth + Tree.itemsHeight ts ≤ limit ∧ Tree.DistinctItems ts ∧ Tree.PairedItems ts)
  | [], depth, hdepth => by
    simpa [Policy.FitsItems, Tree.itemsHeight, Tree.DistinctItems, Tree.PairedItems]
  | t :: rest, depth, hdepth => by
    simp only [Policy.FitsItems, h.fits t hdepth, h.fitsItems rest hdepth, Tree.itemsHeight,
      Tree.DistinctItems, Tree.PairedItems, add_max_le]
    tauto

theorem Policy.Strict.fitsMembers (h : p.Strict limit) : ∀ (ms : List (Str × Tree)) {depth : Nat},
    depth ≤ limit → (p.FitsMembers depth ms ↔
      depth + Tree.membersHeight ms ≤ limit ∧ Tree.DistinctMembers ms ∧ Tree.PairedMembers ms)
  | [], depth, hdepth => by
    simpa [Policy.FitsMembers, Tree.membersHeight, Tree.DistinctMembers, Tree.PairedMembers]
  | m :: rest, depth, hdepth => by
    simp only [Policy.FitsMembers, h.allowed, h.fits m.2 hdepth, h.fitsMembers rest hdepth,
      Tree.membersHeight, Tree.DistinctMembers, Tree.PairedMembers, add_max_le]
    tauto

end

/-! ## `JSON.parse` -/

/-- A value of the language: strings and names are code units, and an object has the list of its
properties in the order in which they were defined. -/
inductive JsValue (ν : Type)
  | null
  | bool (value : Bool)
  | number (value : ν)
  | string (value : List Nat)
  | array (items : List (JsValue ν))
  | object (properties : List (List Nat × JsValue ν))

variable {ν : Type}

/-- Properties defined one after the other: a later one of the same name takes the place. -/
def defineAll (members : List (List Nat × JsValue ν)) : List (List Nat × JsValue ν) :=
  members.foldl (fun properties m => OrderedMap.upsert m.1 m.2 properties) []

namespace Tree

variable (number : NumberText → ν)

def literalValue : Literal → JsValue ν
  | .null => .null
  | .bool b => .bool b
  | .number n => .number (number n)

mutual

/-- The value with every member it was written with. -/
def plain : Tree → JsValue ν
  | literal l => literalValue number l
  | string k => .string k.units
  | array items => .array (plainItems items)
  | object members => .object (plainMembers members)

def plainItems : List Tree → List (JsValue ν)
  | [] => []
  | t :: rest => plain t :: plainItems rest

def plainMembers : List (Str × Tree) → List (List Nat × JsValue ν)
  | [] => []
  | m :: rest => (m.1.units, plain m.2) :: plainMembers rest

end

mutual

def value : Tree → JsValue ν
  | literal l => literalValue number l
  | string k => .string k.units
  | array items => .array (valueItems items)
  | object members => .object (defineAll (valueMembers members))

def valueItems : List Tree → List (JsValue ν)
  | [] => []
  | t :: rest => value t :: valueItems rest

def valueMembers : List (Str × Tree) → List (List Nat × JsValue ν)
  | [] => []
  | m :: rest => (m.1.units, value m.2) :: valueMembers rest

end

end Tree

def isWhite (c : Nat) : Bool := c = 0x09 ∨ c = 0x0A ∨ c = 0x0D ∨ c = 0x20

/-- The grammar and nothing else. -/
def lenient : Policy where
  blank := isWhite
  room _ := true
  distinct := false
  allowed _ := true
  literal := readLiteral
  blank_white _ h := of_decide_eq_true h
  literal_sound := readLiteral_sound
  literal_append := readLiteral_append

/-- `JSON.parse`: the value of the text, or nothing where it throws. -/
def parse (number : NumberText → ν) (s : List Nat) : Option (JsValue ν) :=
  (lenient.read (2 * s.length + 1) s).map (Tree.value number)

mutual

theorem fits_lenient : ∀ (t : Tree) (depth : Nat), lenient.Fits depth t
  | .literal _, _ => trivial
  | .string _, _ => rfl
  | .array items, depth => ⟨rfl, fitsItems_lenient items (depth + 1)⟩
  | .object members, depth => ⟨rfl, nofun, fitsMembers_lenient members (depth + 1)⟩

theorem fitsItems_lenient : ∀ (ts : List Tree) (depth : Nat), lenient.FitsItems depth ts
  | [], _ => trivial
  | t :: rest, depth => ⟨fits_lenient t depth, fitsItems_lenient rest depth⟩

theorem fitsMembers_lenient : ∀ (ms : List (Str × Tree)) (depth : Nat), lenient.FitsMembers depth ms
  | [], _ => trivial
  | m :: rest, depth => ⟨rfl, fits_lenient m.2 depth, fitsMembers_lenient rest depth⟩

end

theorem parse_eq_some {number : NumberText → ν} {s : List Nat} {v : JsValue ν} :
    parse number s = some v ↔ ∃ t, Text isWhite t s ∧ t.value number = v := by
  rw [parse, Option.map_eq_some_iff]
  refine exists_congr fun t => and_congr_left fun _ => ?_
  rw [read_eq_some lenient (Nat.lt_succ_self _), and_iff_left (fits_lenient t 0)]
  rfl

/-- The token of a string means the string. -/
theorem parse_quoted (number : NumberText → ν) (k : Str) :
    parse number (quoted k []) = some (.string k.units) :=
  parse_eq_some.mpr ⟨.string k, ⟨_, _, .refl _ _, .string k [], .refl _ _⟩, rfl⟩

/-! ## Names that do not repeat -/

theorem defineAll_of_nodup {members : List (List Nat × JsValue ν)}
    (h : (members.map Prod.fst).Nodup) : defineAll members = members :=
  OrderedMap.foldl_upsert members [] h

theorem plainMembers_names (number : NumberText → ν) : ∀ members : List (Str × Tree),
    (Tree.plainMembers number members).map Prod.fst = names members
  | [] => rfl
  | m :: rest => congrArg (m.1.units :: ·) (plainMembers_names number rest)

mutual

/-- No member is lost where no name repeats. -/
theorem value_of_distinct (number : NumberText → ν) : ∀ {t : Tree}, t.Distinct →
    t.value number = t.plain number
  | .literal _, _ => rfl
  | .string _, _ => rfl
  | .array items, h => congrArg JsValue.array (valueItems_of_distinct number h)
  | .object members, h => by
    rw [Tree.value, Tree.plain, valueMembers_of_distinct number h.2,
      defineAll_of_nodup (by rw [plainMembers_names]; exact h.1)]

theorem valueItems_of_distinct (number : NumberText → ν) : ∀ {ts : List Tree},
    Tree.DistinctItems ts → Tree.valueItems number ts = Tree.plainItems number ts
  | [], _ => rfl
  | _ :: _, h =>
    congrArg₂ List.cons (value_of_distinct number h.1) (valueItems_of_distinct number h.2)

theorem valueMembers_of_distinct (number : NumberText → ν) : ∀ {ms : List (Str × Tree)},
    Tree.DistinctMembers ms → Tree.valueMembers number ms = Tree.plainMembers number ms
  | [], _ => rfl
  | m :: _, h =>
    congrArg₂ (fun v rest => (m.1.units, v) :: rest) (value_of_distinct number h.1)
      (valueMembers_of_distinct number h.2)

end

/-! ## Other white space -/

variable {blank blank' : Nat → Bool}

/-- What is white in `s` is white the other way, too. -/
def Whitens (blank blank' : Nat → Bool) (s : List Nat) : Prop :=
  ∀ c ∈ s, blank c = true → blank' c = true

theorem Blanks.change {s r : List Nat} (h : Blanks blank s r) (hs : Whitens blank blank' s) :
    Blanks blank' s r ∧ r ⊆ s := by
  obtain ⟨w, hw, rfl⟩ := h
  exact ⟨⟨w, fun c hc => hs c (List.mem_append_left _ hc) (hw c hc), rfl⟩,
    List.subset_append_right _ _⟩

theorem Blanks.quoted_change {s r : List Nat} {k : Str} (h : Blanks blank s (quoted k r))
    (hs : Whitens blank blank' s) : Blanks blank' s (quoted k r) ∧ r ⊆ s := by
  obtain ⟨h, hsub⟩ := h.change hs
  exact ⟨h, fun _ hc => hsub (List.mem_cons_of_mem _ (List.mem_append_right _
    (List.mem_cons_of_mem _ hc)))⟩

theorem Whitens.mono {s r : List Nat} (h : Whitens blank blank' s) (hr : r ⊆ s) :
    Whitens blank blank' r :=
  fun c hc => h c (hr hc)

mutual

theorem Value.change : ∀ {t : Tree} {s r : List Nat}, Value blank t s r →
    Whitens blank blank' s → Value blank' t s r ∧ r ⊆ s
  | _, _, _, .literal l r, _ => ⟨.literal l r, List.subset_append_right _ _⟩
  | _, _, _, .string k r, _ =>
    ⟨.string k r, fun _ hc => List.mem_cons_of_mem _ (List.mem_append_right _
      (List.mem_cons_of_mem _ hc))⟩
  | _, _, _, .emptyArray h, hs => by
    obtain ⟨h, hsub⟩ := h.change (hs.mono (List.subset_cons_self _ _))
    exact ⟨.emptyArray h, fun _ hc => List.mem_cons_of_mem _ (hsub (List.mem_cons_of_mem _ hc))⟩
  | _, _, _, .array h, hs => by
    obtain ⟨h, hsub⟩ := h.change (hs.mono (List.subset_cons_self _ _))
    exact ⟨.array h, fun _ hc => List.mem_cons_of_mem _ (hsub hc)⟩
  | _, _, _, .emptyObject h, hs => by
    obtain ⟨h, hsub⟩ := h.change (hs.mono (List.subset_cons_self _ _))
    exact ⟨.emptyObject h, fun _ hc => List.mem_cons_of_mem _ (hsub (List.mem_cons_of_mem _ hc))⟩
  | _, _, _, .object h, hs => by
    obtain ⟨h, hsub⟩ := h.change (hs.mono (List.subset_cons_self _ _))
    exact ⟨.object h, fun _ hc => List.mem_cons_of_mem _ (hsub hc)⟩

theorem Items.change : ∀ {ts : List Tree} {s r : List Nat}, Items blank ts s r →
    Whitens blank blank' s → Items blank' ts s r ∧ r ⊆ s
  | _, _, _, .last hblank hvalue hclose, hs => by
    obtain ⟨hblank, hsub₁⟩ := hblank.change hs
    obtain ⟨hvalue, hsub₂⟩ := hvalue.change (hs.mono hsub₁)
    have hsub := List.Subset.trans hsub₂ hsub₁
    obtain ⟨hclose, hsub₃⟩ := hclose.change (hs.mono hsub)
    exact ⟨.last hblank hvalue hclose, fun _ hc => hsub (hsub₃ (List.mem_cons_of_mem _ hc))⟩
  | _, _, _, .more hblank hvalue hcomma hrest, hs => by
    obtain ⟨hblank, hsub₁⟩ := hblank.change hs
    obtain ⟨hvalue, hsub₂⟩ := hvalue.change (hs.mono hsub₁)
    obtain ⟨hcomma, hsub₃⟩ := hcomma.change (hs.mono (List.Subset.trans hsub₂ hsub₁))
    have hsub : (_ : List Nat) ⊆ _ := List.Subset.trans (List.subset_cons_self _ _)
      (List.Subset.trans hsub₃ (List.Subset.trans hsub₂ hsub₁))
    obtain ⟨hrest, hsub₄⟩ := hrest.change (hs.mono hsub)
    exact ⟨.more hblank hvalue hcomma hrest, List.Subset.trans hsub₄ hsub⟩

theorem Members.change : ∀ {ms : List (Str × Tree)} {s r : List Nat}, Members blank ms s r →
    Whitens blank blank' s → Members blank' ms s r ∧ r ⊆ s
  | _, _, _, .last hkey hcolon hblank hvalue hclose, hs => by
    obtain ⟨hkey, hsub₁⟩ := hkey.quoted_change hs
    obtain ⟨hcolon, hsub₂⟩ := hcolon.change (hs.mono hsub₁)
    have hsub : (_ : List Nat) ⊆ _ := List.Subset.trans (List.subset_cons_self _ _)
      (List.Subset.trans hsub₂ hsub₁)
    obtain ⟨hblank, hsub₃⟩ := hblank.change (hs.mono hsub)
    obtain ⟨hvalue, hsub₄⟩ := hvalue.change (hs.mono (List.Subset.trans hsub₃ hsub))
    have hsub' := List.Subset.trans hsub₄ (List.Subset.trans hsub₃ hsub)
    obtain ⟨hclose, hsub₅⟩ := hclose.change (hs.mono hsub')
    exact ⟨.last hkey hcolon hblank hvalue hclose,
      fun _ hc => hsub' (hsub₅ (List.mem_cons_of_mem _ hc))⟩
  | _, _, _, .more hkey hcolon hblank hvalue hcomma hrest, hs => by
    obtain ⟨hkey, hsub₁⟩ := hkey.quoted_change hs
    obtain ⟨hcolon, hsub₂⟩ := hcolon.change (hs.mono hsub₁)
    have hsub : (_ : List Nat) ⊆ _ := List.Subset.trans (List.subset_cons_self _ _)
      (List.Subset.trans hsub₂ hsub₁)
    obtain ⟨hblank, hsub₃⟩ := hblank.change (hs.mono hsub)
    obtain ⟨hvalue, hsub₄⟩ := hvalue.change (hs.mono (List.Subset.trans hsub₃ hsub))
    have hsub' := List.Subset.trans hsub₄ (List.Subset.trans hsub₃ hsub)
    obtain ⟨hcomma, hsub₅⟩ := hcomma.change (hs.mono hsub')
    have hsub'' : (_ : List Nat) ⊆ _ := List.Subset.trans (List.subset_cons_self _ _)
      (List.Subset.trans hsub₅ hsub')
    obtain ⟨hrest, hsub₆⟩ := hrest.change (hs.mono hsub'')
    exact ⟨.more hkey hcolon hblank hvalue hcomma hrest, List.Subset.trans hsub₆ hsub''⟩

end

theorem Text.change {t : Tree} {s : List Nat} (h : Text blank t s) (hs : Whitens blank blank' s) :
    Text blank' t s := by
  obtain ⟨s₁, s₂, hblank, hvalue, hend⟩ := h
  obtain ⟨hblank, hsub₁⟩ := hblank.change hs
  obtain ⟨hvalue, hsub₂⟩ := hvalue.change (hs.mono hsub₁)
  exact ⟨s₁, s₂, hblank, hvalue, (hend.change (hs.mono (List.Subset.trans hsub₂ hsub₁))).1⟩

end SurfaceLoom.Lib.JsonText
