import TickTree.Builder.Term

/-!
# Reading terms back

The calls that write a term down can be read in one way only, and they list the nodes of its tree in
order, each once.

Main results:

- Theorem `Term.encode_append_inj`: what begins with the calls of a term begins with no other term.
- Theorem `Term.listing_tree`: the listing of a term's tree is the listing of its calls.
-/

namespace TickTree

open Builder (Call)

/-! ## One reading only -/

/-- The call stages a ready-made decorator. -/
def Builder.Call.isDecorator : Call → Bool
  | .decorator _ => true
  | _ => false

/-- A run of decorators ends at the first call that is none. -/
theorem decorators_append_inj {wraps wraps' : List Decorator} {call call' : Call}
    {rest rest' : List Call} (hcall : call.isDecorator = false) (hcall' : call'.isDecorator = false)
    (h : wraps.map Call.decorator ++ call :: rest = wraps'.map Call.decorator ++ call' :: rest') :
    wraps = wraps' ∧ call = call' ∧ rest = rest' := by
  induction wraps generalizing wraps' with
  | nil =>
    cases wraps' with
    | nil =>
      rcases List.cons.inj h with ⟨hhead, htail⟩
      exact ⟨rfl, hhead, htail⟩
    | cons part parts =>
      rcases List.cons.inj h with ⟨hhead, -⟩
      rw [hhead] at hcall
      cases hcall
  | cons part parts ih =>
    cases wraps' with
    | nil =>
      rcases List.cons.inj h with ⟨hhead, -⟩
      rw [← hhead] at hcall'
      cases hcall'
    | cons part' parts' =>
      rcases List.cons.inj h with ⟨hhead, htail⟩
      rcases ih htail with ⟨rfl, hcalls⟩
      cases hhead
      exact ⟨rfl, hcalls⟩

namespace Term

/-- No term begins with the end of a scope. -/
theorem encode_append_ne_close (t : Term) (rest others : List Call) :
    t.encode ++ rest ≠ .close :: others := by
  intro h
  have hnone : t.encode ++ rest = ([] : List Decorator).map Call.decorator ++ .close :: others := h
  cases t with
  | node wraps inner =>
    rw [encode, List.append_assoc] at hnone
    rcases decorators_append_inj rfl rfl hnone with ⟨-, hhead, -⟩
    cases hhead
  | composite wraps part given children =>
    rw [encode, List.append_assoc] at hnone
    rcases decorators_append_inj rfl rfl hnone with ⟨-, hhead, -⟩
    cases hhead

mutual

/-- What begins with the calls of a term begins with no other term. -/
theorem encode_append_inj : ∀ (t u : Term) {rest others : List Call},
    t.encode ++ rest = u.encode ++ others → t = u ∧ rest = others
  | .node wraps inner, u, rest, others, h => by
    cases u with
    | node wraps' inner' =>
      rw [encode, encode, List.append_assoc, List.append_assoc] at h
      rcases decorators_append_inj rfl rfl h with ⟨rfl, hinner, hrest⟩
      cases hinner
      exact ⟨rfl, hrest⟩
    | composite wraps' part given children =>
      rw [encode, encode, List.append_assoc, List.append_assoc] at h
      rcases decorators_append_inj rfl rfl h with ⟨-, hhead, -⟩
      cases hhead
  | .composite wraps part given children, u, rest, others, h => by
    cases u with
    | node wraps' inner' =>
      rw [encode, encode, List.append_assoc, List.append_assoc] at h
      rcases decorators_append_inj rfl rfl h with ⟨-, hhead, -⟩
      cases hhead
    | composite wraps' part' given' children' =>
      rw [encode, encode, List.append_assoc, List.append_assoc] at h
      rcases decorators_append_inj rfl rfl h with ⟨rfl, hopen, hinside⟩
      cases hopen
      rw [List.append_eq, List.append_eq, List.append_assoc, List.append_assoc] at hinside
      rcases encodeAll_append_inj children children' hinside with ⟨rfl, hrest⟩
      exact ⟨rfl, hrest⟩

/-- The end of a scope marks where its terms end. -/
theorem encodeAll_append_inj : ∀ (ts us : List Term) {rest others : List Call},
    encodeAll ts ++ .close :: rest = encodeAll us ++ .close :: others → ts = us ∧ rest = others
  | [], us, rest, others, h => by
    cases us with
    | nil => exact ⟨rfl, (List.cons.inj h).2⟩
    | cons u us =>
      rw [encodeAll, encodeAll, List.append_assoc] at h
      exact absurd h.symm (u.encode_append_ne_close _ _)
  | t :: ts, us, rest, others, h => by
    cases us with
    | nil =>
      rw [encodeAll, encodeAll, List.append_assoc] at h
      exact absurd h (t.encode_append_ne_close _ _)
    | cons u us =>
      rw [encodeAll, encodeAll, List.append_assoc, List.append_assoc] at h
      rcases encode_append_inj t u h with ⟨rfl, htail⟩
      rcases encodeAll_append_inj ts us htail with ⟨rfl, hrest⟩
      exact ⟨rfl, hrest⟩

end

/-- Several terms are written down one after the other. -/
theorem encodeAll_eq (ts : List Term) : encodeAll ts = ts.flatMap encode := by
  induction ts with
  | nil => rfl
  | cons t rest ih => rw [encodeAll, List.flatMap_cons, ih]

/-- The trees of several terms, one by one. -/
theorem trees_eq (ts : List Term) : trees ts = ts.map tree := by
  induction ts with
  | nil => rfl
  | cons t rest ih => rw [trees, List.map_cons, ih]

end Term

/-! ## Listings -/

/-- A node in a listing, without the nodes below it.  Of a decorator the listing says whether it
holds a child. -/
inductive Entry where
  | leaf (part : Leaf)
  | composite (part : Composite)
  | decorator (part : Decorator) (holds : Bool)
  | reference (part : Reference)
  | embedded (tag : Option Tag)

namespace Node

mutual

/-- All nodes of a tree, each before the nodes below it. -/
def listing : Node → List Entry
  | leaf part => [.leaf part]
  | composite part children => .composite part :: listingOfChildren children
  | decorator part child => .decorator part child.isSome :: listingOfChild child
  | reference part => [.reference part]
  | embedded tag root => .embedded tag :: listing root

/-- All nodes below a composite. -/
def listingOfChildren : List Node → List Entry
  | [] => []
  | child :: rest => listing child ++ listingOfChildren rest

/-- All nodes below a decorator. -/
def listingOfChild : Option Node → List Entry
  | none => []
  | some child => listing child

end

theorem listingOfChildren_append (first second : List Node) :
    listingOfChildren (first ++ second) = listingOfChildren first ++ listingOfChildren second := by
  induction first with
  | nil => rfl
  | cons child rest ih => rw [List.cons_append, listingOfChildren, ih, listingOfChildren,
      List.append_assoc]

end Node

/-- The nodes that a call with ready-made parts adds; a decorator that it stages is to hold a
child. -/
def Builder.Call.listing : Call → List Entry
  | .composite part given => .composite part :: Node.listingOfChildren given
  | .decorator part => [.decorator part true]
  | .node inner => inner.listing
  | _ => []

/-- A wrapped node is listed after its decorators. -/
theorem listing_wrapOutermost (wraps : List Decorator) (inner : Node) :
    (wrapOutermost wraps inner).listing =
      (wraps.map Call.decorator).flatMap Call.listing ++ inner.listing := by
  induction wraps with
  | nil => rfl
  | cons part rest ih =>
    show Entry.decorator part true :: (wrapOutermost rest inner).listing = _
    rw [ih, List.map_cons, List.flatMap_cons]
    rfl

namespace Term

mutual

/-- The listing of a term's tree is the listing of its calls. -/
theorem listing_tree : ∀ t : Term, t.tree.listing = t.encode.flatMap Call.listing
  | .node wraps inner => by
    rw [tree, encode, listing_wrapOutermost, List.flatMap_append, List.flatMap_singleton]
    rfl
  | .composite wraps part given children => by
    rw [tree, encode, listing_wrapOutermost, List.flatMap_append, List.flatMap_cons,
      List.flatMap_append, List.flatMap_singleton, Node.listing, Node.listingOfChildren_append,
      listing_trees children]
    simp only [Call.listing, List.append_nil, List.cons_append]

/-- The listings of terms' trees are the listings of their calls. -/
theorem listing_trees : ∀ ts : List Term,
    Node.listingOfChildren (trees ts) = (encodeAll ts).flatMap Call.listing
  | [] => rfl
  | t :: rest => by
    rw [trees, encodeAll, Node.listingOfChildren, List.flatMap_append, listing_tree t,
      listing_trees rest]

end

end Term

end TickTree
