import Mathlib
import TemplateLint.Proofs.Rewriting

/-! # Walks

A walk keeps one path, which it extends when it goes down to a node and cuts back when it comes up
again. `Template.walk_eq` says that such a walk meets the events of the template, each text with the
path as it is at that moment, and has the empty path at its end. The events of entering and leaving
are nested, and those that enclose a text are of the elements along its address. To change the text
at an address is to change the one event at which a walk has that path. So the path of a walk and
the lookup of an address are two readings of one address space.
-/

namespace TemplateLint

/-! ## A walk that changes its path -/

/-- How far a walk has come. -/
structure Walk where
  /-- The steps down to the node at hand. -/
  path : Address := []
  /-- What the walk has met. -/
  met : List Event := []

namespace Walk

/-- Go one step down. -/
def push (walk : Walk) (step : Step) : Walk := { walk with path := walk.path ++ [step] }

/-- Come back up, if the walk is below the template. -/
def pop (walk : Walk) : Walk := { walk with path := walk.path.dropLast }

/-- Meet something at the node at hand. -/
def meet (walk : Walk) (event : Event) : Walk := { walk with met := walk.met ++ [event] }

/-- The walk at the same node, when it has met some more. -/
def later (walk : Walk) (events : List Event) : Walk := { walk with met := walk.met ++ events }

@[simp] theorem path_later (walk : Walk) (events : List Event) :
    (walk.later events).path = walk.path := rfl

@[simp] theorem later_nil (walk : Walk) : walk.later [] = walk := by simp [later]

@[simp] theorem later_later (walk : Walk) (first second : List Event) :
    (walk.later first).later second = walk.later (first ++ second) := by simp [later]

theorem meet_eq (walk : Walk) (event : Event) : walk.meet event = walk.later [event] := rfl

/-- Coming up undoes going down. -/
theorem pop_later_push (walk : Walk) (step : Step) (events : List Event) :
    ((walk.push step).later events).pop = walk.later events := by
  simp [push, later, pop]

theorem foldl_meet (walk : Walk) (attributes : List Attribute) :
    attributes.foldl (fun walk attr => walk.meet (.attr attr)) walk =
      walk.later (attributes.map Event.attr) := by
  induction attributes generalizing walk with
  | nil => simp
  | cons attr rest ih =>
    rw [List.foldl_cons, ih, meet_eq, later_later]
    rfl

end Walk

mutual
/-- Walk a node. -/
def Node.walk (walk : Walk) : Node → Walk
  | .text node => walk.meet (.text node walk.path)
  | .element tag attributes children _ _ =>
    let entered := walk.meet (.enter tag)
    let inside := attributes.foldl (fun walk attr => walk.meet (.attr attr)) entered
    (Node.walkList .child 0 inside children).meet (.exit tag)
  | .mustache node => walk.meet (.mustache node)
  | .block _ program inverse _ _ =>
    Block.walkOption .inverse (Block.walk .program walk program) inverse
  | .other _ => walk
/-- Walk nodes in a list, from an index on: down to each, and up again. -/
def Node.walkList (step : Nat → Step) (index : Nat) (walk : Walk) : List Node → Walk
  | [] => walk
  | node :: rest =>
    Node.walkList step (index + 1) (Node.walk (walk.push (step index)) node).pop rest
/-- Walk a branch of a block. -/
def Block.walk (step : Nat → Step) (walk : Walk) : Block → Walk
  | .mk body _ => Node.walkList step 0 walk body
/-- Walk a branch that may be absent. -/
def Block.walkOption (step : Nat → Step) (walk : Walk) : Option Block → Walk
  | none => walk
  | some block => Block.walk step walk block
end

/-- Walk a template. -/
def Template.walk (template : Template) : Walk :=
  Node.walkList .child 0 {} template.body

mutual
theorem Node.walk_eq (walk : Walk) : (node : Node) →
    Node.walk walk node = walk.later (node.events walk.path)
  | .text node => rfl
  | .element tag attributes children location extra => by
    simp only [Node.walk, Walk.foldl_meet, Node.walkList_eq .child 0 _ children]
    simp [Walk.meet_eq, Node.events]
  | .mustache node => rfl
  | .block path program inverse location extra => by
    simp only [Node.walk, Node.events, Block.walk_eq .program walk program,
      Block.walkOption_eq .inverse _ inverse, Walk.path_later, Walk.later_later]
  | .other value => by simp [Node.walk, Node.events]
theorem Node.walkList_eq (step : Nat → Step) (index : Nat) (walk : Walk) : (nodes : List Node) →
    Node.walkList step index walk nodes = walk.later (Node.listEvents walk.path step index nodes)
  | [] => by simp [Node.walkList, Node.listEvents]
  | node :: rest => by
    rw [Node.walkList, Node.walk_eq (walk.push (step index)) node, Walk.pop_later_push,
      Node.walkList_eq step (index + 1) _ rest, Walk.later_later]
    rfl
theorem Block.walk_eq (step : Nat → Step) (walk : Walk) : (block : Block) →
    Block.walk step walk block = walk.later (block.events walk.path step)
  | .mk body _ => Node.walkList_eq step 0 walk body
theorem Block.walkOption_eq (step : Nat → Step) (walk : Walk) : (branch : Option Block) →
    Block.walkOption step walk branch = walk.later (Block.optionEvents walk.path step branch)
  | none => by simp [Block.walkOption, Block.optionEvents]
  | some block => Block.walk_eq step walk block
end

/-- A walk meets the events of the template and comes back to where it started. -/
theorem Template.walk_eq (template : Template) : template.walk = ⟨[], template.events⟩ :=
  Node.walkList_eq .child 0 {} template.body

/-! ## Nesting -/

/-- The tags of the open elements, innermost first, after an event: only the innermost element can
be left. -/
def Event.nest (tags : List String) : Event → Option (List String)
  | .enter tag => some (tag :: tags)
  | .exit tag => if tags.head? = some tag then some tags.tail else none
  | _ => some tags

theorem Event.foldlM_nest_attributes (tags : List String) (attributes : List Attribute) :
    (attributes.map Event.attr).foldlM Event.nest tags = some tags := by
  induction attributes with
  | nil => rfl
  | cons attr rest ih => exact ih

mutual
theorem Node.foldlM_nest (tags : List String) (address : Address) : (node : Node) →
    (node.events address).foldlM Event.nest tags = some tags
  | .text node => rfl
  | .element tag attributes children location extra => by
    simp [Node.events, Event.nest, Event.foldlM_nest_attributes,
      Node.foldlM_nest_list (tag :: tags) address .child 0 children]
  | .mustache node => rfl
  | .block path program inverse location extra => by
    simp [Node.events, Block.foldlM_nest tags address .program program,
      Block.foldlM_nest_option tags address .inverse inverse]
  | .other value => rfl
theorem Node.foldlM_nest_list (tags : List String) (address : Address) (step : Nat → Step)
    (index : Nat) : (nodes : List Node) →
    (Node.listEvents address step index nodes).foldlM Event.nest tags = some tags
  | [] => rfl
  | node :: rest => by
    simp [Node.listEvents, Node.foldlM_nest tags (address ++ [step index]) node,
      Node.foldlM_nest_list tags address step (index + 1) rest]
theorem Block.foldlM_nest (tags : List String) (address : Address) (step : Nat → Step) :
    (block : Block) → (block.events address step).foldlM Event.nest tags = some tags
  | .mk body _ => Node.foldlM_nest_list tags address step 0 body
theorem Block.foldlM_nest_option (tags : List String) (address : Address) (step : Nat → Step) :
    (branch : Option Block) →
    (Block.optionEvents address step branch).foldlM Event.nest tags = some tags
  | none => rfl
  | some block => Block.foldlM_nest tags address step block
end

/-- An event of two lists one behind the other is in the first or in the second. -/
theorem Event.split_append {first second before after : List Event} {event : Event}
    (split : first ++ second = before ++ event :: after) :
    (∃ rest, first = before ++ event :: rest) ∨
      ∃ rest, before = first ++ rest ∧ second = rest ++ event :: after := by
  obtain ⟨rest, rfl, whole⟩ | ⟨rest, rfl, whole⟩ := List.append_eq_append_iff.mp split
  · exact .inr ⟨rest, rfl, whole⟩
  · cases rest with
    | nil => exact .inr ⟨[], by simp, by simpa using whole.symm⟩
    | cons head rest =>
      obtain ⟨rfl, -⟩ := List.cons.inj whole
      exact .inl ⟨rest, rfl⟩

mutual
/-- When a walk meets a text below a node, the elements around its address are open. -/
theorem Node.nest_before (tags : List String) (address place : Address) (text : TextNode)
    (before after : List Event) : (node : Node) →
    node.events address = before ++ .text text place :: after →
      ∃ rest, place = address ++ rest ∧ before.foldlM Event.nest tags = some (node.tagsAt tags rest)
  | .text node => by
    intro split
    cases before with
    | nil =>
      cases (List.cons.inj split).1
      exact ⟨[], (List.append_nil _).symm, rfl⟩
    | cons head before => simp [Node.events] at split
  | .element tag attributes children location extra => by
    intro split
    cases before with
    | nil => cases (List.cons.inj split).1
    | cons head before =>
      obtain ⟨rfl, whole⟩ := List.cons.inj split
      obtain ⟨behind, front⟩ | ⟨_, -, last⟩ := Event.split_append whole
      · obtain ⟨_, attrs⟩ | ⟨inner, rfl, inside⟩ := Event.split_append front
        · have among : Event.text text place ∈ attributes.map Event.attr := by simp [attrs]
          simp at among
        · obtain ⟨i, rest, child, below, rfl, opened⟩ :=
            Node.nest_before_list (tag :: tags) address place text .child 0 inner behind children
              inside
          rw [Nat.zero_add]
          refine ⟨_, rfl, ?_⟩
          simp [Event.nest, Event.foldlM_nest_attributes, opened, Node.tagsAt, below]
      · have among : Event.text text place ∈ [Event.exit tag] := by simp [last]
        simp at among
  | .mustache node => by
    intro split
    have among : Event.text text place ∈ (Node.mustache node).events address := by simp [split]
    simp [Node.events] at among
  | .block path program inverse location extra => by
    intro split
    obtain ⟨behind, first⟩ | ⟨inner, rfl, second⟩ := Event.split_append split
    · obtain ⟨i, rest, child, below, rfl, opened⟩ :=
        Block.nest_before tags address place text .program before behind program first
      refine ⟨_, rfl, ?_⟩
      simp [opened, Node.tagsAt, below]
    · obtain ⟨block, i, rest, child, rfl, below, rfl, opened⟩ :=
        Block.nest_before_option tags address place text .inverse inner after inverse second
      refine ⟨_, rfl, ?_⟩
      simp [Block.foldlM_nest, opened, Node.tagsAt, below]
  | .other value => by
    intro split
    simp [Node.events] at split
theorem Node.nest_before_list (tags : List String) (address place : Address) (text : TextNode)
    (step : Nat → Step) (index : Nat) (before after : List Event) : (nodes : List Node) →
    Node.listEvents address step index nodes = before ++ .text text place :: after →
      ∃ i rest node, nodes[i]? = some node ∧ place = address ++ step (index + i) :: rest ∧
        before.foldlM Event.nest tags = some (node.tagsAt tags rest)
  | [] => by
    intro split
    simp [Node.listEvents] at split
  | node :: others => by
    intro split
    obtain ⟨behind, first⟩ | ⟨inner, rfl, second⟩ := Event.split_append split
    · obtain ⟨rest, rfl, opened⟩ :=
        Node.nest_before tags (address ++ [step index]) place text before behind node first
      exact ⟨0, rest, node, rfl, by simp, opened⟩
    · obtain ⟨i, rest, child, below, rfl, opened⟩ :=
        Node.nest_before_list tags address place text step (index + 1) inner after others second
      refine ⟨i + 1, rest, child, below, by rw [Nat.add_right_comm, Nat.add_assoc], ?_⟩
      simp [Node.foldlM_nest, opened]
theorem Block.nest_before (tags : List String) (address place : Address) (text : TextNode)
    (step : Nat → Step) (before after : List Event) : (block : Block) →
    block.events address step = before ++ .text text place :: after →
      ∃ i rest node, block.body[i]? = some node ∧ place = address ++ step i :: rest ∧
        before.foldlM Event.nest tags = some (node.tagsAt tags rest)
  | .mk body _ => by
    intro split
    have inside := Node.nest_before_list tags address place text step 0 before after body split
    simp only [Nat.zero_add] at inside
    exact inside
theorem Block.nest_before_option (tags : List String) (address place : Address) (text : TextNode)
    (step : Nat → Step) (before after : List Event) : (branch : Option Block) →
    Block.optionEvents address step branch = before ++ .text text place :: after →
      ∃ block i rest node, branch = some block ∧ block.body[i]? = some node ∧
        place = address ++ step i :: rest ∧
        before.foldlM Event.nest tags = some (node.tagsAt tags rest)
  | none => by
    intro split
    simp [Block.optionEvents] at split
  | some block => by
    intro split
    obtain ⟨i, rest, child, inside⟩ :=
      Block.nest_before tags address place text step before after block split
    exact ⟨block, i, rest, child, rfl, inside⟩
end

/-- The open elements of a walk at a text are those around the address of the text. -/
theorem Template.nest_before (template : Template) {before after : List Event} {text : TextNode}
    {address : Address} (split : template.events = before ++ .text text address :: after) :
    before.foldlM Event.nest [] = some (template.tagsAt address) := by
  obtain ⟨i, rest, node, below, rfl, opened⟩ :=
    Node.nest_before_list [] [] address text .child 0 before after template.body split
  simp [Template.tagsAt, below, opened]

/-! ## Changed texts -/

/-- An event with the characters of its text replaced if there are new ones for its address. -/
def Event.rewrite (chars : Address → Option String) : Event → Event
  | .text node address => .text (node.withChars (chars address)) address
  | event => event

/-- An event with new characters if it is of the text at an address. -/
def Event.setText (address : Address) (chars : String) : Event → Event
  | .text node place => .text (if place = address then { node with chars := chars } else node) place
  | event => event

theorem Event.rewrite_update (address : Address) (chars : String) (event : Event) :
    event.rewrite (Function.update (fun _ => none) address (some chars)) =
      event.setText address chars := by
  cases event with
  | text node place =>
    by_cases same : place = address <;>
      simp [Event.rewrite, Event.setText, TextNode.withChars, same]
  | _ => rfl

mutual
theorem Node.events_rewrite (address : Address) (chars : Address → Option String) : (node : Node) →
    (node.rewrite fun rest => chars (address ++ rest)).events address =
      (node.events address).map (Event.rewrite chars)
  | .text node => by simp [Node.rewrite, Node.events, Event.rewrite, TextNode.withChars]
  | .element tag attributes children location extra => by
    have below := Node.listEvents_rewrite address .child 0 chars children
    simp only [Nat.zero_add] at below
    simp [Node.rewrite, Node.events, below, Event.rewrite]
  | .mustache node => rfl
  | .block path program inverse location extra => by
    rw [Node.rewrite, Node.events, Node.events, List.map_append,
      Block.events_rewrite address .program chars program,
      Block.optionEvents_rewrite address .inverse chars inverse]
  | .other value => rfl
theorem Node.listEvents_rewrite (address : Address) (step : Nat → Step) (index : Nat)
    (chars : Address → Option String) : (nodes : List Node) →
    Node.listEvents address step index
        (Node.listRewrite (fun i rest => chars (address ++ step (index + i) :: rest)) nodes) =
      (Node.listEvents address step index nodes).map (Event.rewrite chars)
  | [] => rfl
  | node :: others => by
    have here := Node.events_rewrite (address ++ [step index]) chars node
    have behind := Node.listEvents_rewrite address step (index + 1) chars others
    simp only [List.append_assoc, List.singleton_append] at here
    simp only [Nat.add_right_comm index 1, Nat.add_assoc] at behind
    rw [Node.listRewrite, Node.listEvents, Node.listEvents, List.map_append]
    simp only [Nat.add_zero, here, behind]
theorem Block.events_rewrite (address : Address) (step : Nat → Step)
    (chars : Address → Option String) : (block : Block) →
    (block.rewrite fun i rest => chars (address ++ step i :: rest)).events address step =
      (block.events address step).map (Event.rewrite chars)
  | .mk body _ => by
    have listed := Node.listEvents_rewrite address step 0 chars body
    simp only [Nat.zero_add] at listed
    exact listed
theorem Block.optionEvents_rewrite (address : Address) (step : Nat → Step)
    (chars : Address → Option String) : (branch : Option Block) →
    Block.optionEvents address step
        (Block.optionRewrite (fun i rest => chars (address ++ step i :: rest)) branch) =
      (Block.optionEvents address step branch).map (Event.rewrite chars)
  | none => rfl
  | some block => Block.events_rewrite address step chars block
end

/-- A rewriting changes the characters of texts and nothing else about the events. -/
theorem Template.events_rewrite (chars : Address → Option String) (template : Template) :
    (template.rewrite chars).events = template.events.map (Event.rewrite chars) := by
  have listed := Node.listEvents_rewrite [] .child 0 chars template.body
  simp only [Nat.zero_add, List.nil_append] at listed
  exact listed

/-- To change a text is to change the event with its address. -/
theorem Template.events_setTextAt (template : Template) (address : Address) (chars : String) :
    (template.setTextAt address chars).events =
      template.events.map (Event.setText address chars) := by
  have changed := Template.setTextAt_rewrite chars address (fun _ => none) template
  rw [Template.rewrite_none] at changed
  rw [changed, Template.events_rewrite]
  exact List.map_congr_left fun event _ => event.rewrite_update address chars

/-! ## Walk and lookup -/

theorem Template.text_mem_events (template : Template) (text : TextNode) (address : Address) :
    Event.text text address ∈ template.events ↔ template.textAt? address = some text := by
  rw [← Template.mem_texts, Template.texts, List.mem_filterMap]
  constructor
  · intro met
    exact ⟨_, met, rfl⟩
  · rintro ⟨event, met, same⟩
    cases event with
    | text node place =>
      obtain ⟨rfl, rfl⟩ := Prod.mk.inj (Option.some.inj same)
      exact met
    | _ => cases same

/-- A walk and a lookup agree on the addresses of a template. The walk that keeps one path and
changes it meets the events of the template and has the empty path at its end. The addresses at
which it meets texts are different, lookup finds there the texts that are met, and an address is met
once if lookup finds a text there, and never otherwise. A change through an address is one to the
text that is met there, and to nothing else that is met. Elements are entered and left in nested
order, and those that are open when a text is met are the ones along its address. -/
theorem walk_and_lookup_agree (template : Template) :
    template.walk = ⟨[], template.events⟩ ∧
      (Event.addresses template.walk.met).Nodup ∧
      (∀ text address, Event.text text address ∈ template.walk.met ↔
        template.textAt? address = some text) ∧
      (∀ address, (Event.addresses template.walk.met).count address =
        if (template.textAt? address).isSome then 1 else 0) ∧
      (∀ address chars, (template.setTextAt address chars).walk.met =
        template.walk.met.map (Event.setText address chars)) ∧
      template.walk.met.foldlM Event.nest [] = some [] ∧
      ∀ before after text address, template.walk.met = before ++ .text text address :: after →
        before.foldlM Event.nest [] = some (template.tagsAt address) := by
  simp only [Template.walk_eq]
  refine ⟨trivial, template.nodup_addresses, template.text_mem_events, fun address => ?_,
    template.events_setTextAt, Node.foldlM_nest_list [] [] .child 0 template.body,
    fun before after text address split => template.nest_before split⟩
  rw [template.nodup_addresses.count]
  refine if_congr ?_ rfl rfl
  rw [Event.mem_addresses, Option.isSome_iff_exists]
  exact exists_congr fun text => template.mem_texts address text

/-- A text in a branch of a block, inside an element. -/
def sampleNested : Template :=
  ⟨[.element "p" [] [.block (.path ⟨"if", none, []⟩) (.mk [] [])
    (some (.mk [.mustache ⟨.other .null, none, []⟩, .text ⟨"Hi", none, []⟩] [])) none []]
    none []], []⟩

theorem sampleNested_met_inside :
    sampleNested.walk.met =
        [.enter "p", .mustache ⟨.other .null, none, []⟩] ++
          .text ⟨"Hi", none, []⟩ [.child 0, .child 0, .inverse 1] :: [.exit "p"] ∧
      sampleNested.textAt? [.child 0, .child 0, .inverse 1] = some ⟨"Hi", none, []⟩ ∧
      [Event.enter "p", .mustache ⟨.other .null, none, []⟩].foldlM Event.nest [] =
        some (sampleNested.tagsAt [.child 0, .child 0, .inverse 1]) := by
  have met : sampleNested.walk.met =
      [.enter "p", .mustache ⟨.other .null, none, []⟩] ++
        .text ⟨"Hi", none, []⟩ [.child 0, .child 0, .inverse 1] :: [.exit "p"] := rfl
  obtain ⟨-, -, texts, -, -, -, around⟩ := walk_and_lookup_agree sampleNested
  exact ⟨met, (texts _ _).mp (by simp [met]), around _ _ _ _ met⟩

end TemplateLint
