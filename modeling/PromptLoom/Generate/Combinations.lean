import PromptLoom.Generate.Nesting
import PromptLoom.Generate.Seeds
import PromptLoom.Settings
import PromptLoom.Text.Layout

/-!
# Combinations

Outputs are pulled one at a time. In combinatorial mode the loops over the slots are walked with an
odometer, and slots that are no loops are drawn for every output. In random mode every slot is drawn,
and a choice that was made before is drawn again, until there are enough outputs, every choice has
been made, or the attempts are used up.
-/

namespace PromptLoom

set_option autoImplicit false

structure Combination where
  index : Nat
  positive : String
  negative : String
  seed : Nat
  variations : NameMap Variation
  deriving Repr

inductive Strategy where
  | nested (odometer : Odometer) (order sampled : List Nat)
  | drawn (made : List String) (byName : List Nat) (attemptsLeft space : Nat)
  | exhausted

structure Combinations where
  prepared : Prepared
  separator : String
  seeds : Seeds
  draws : Draws
  strategy : Strategy
  target : Option Nat
  emitted : Nat

namespace Combinations

/-- The attempts that random generation may make for a number of outputs, as a 64-bit word that
stays at its largest. -/
def attemptBudget (target factor : Nat) : Nat := min (target * factor) Text.maxWord64

/-- How choices are found, and how many outputs are wanted. A slot without variations leaves
nothing to choose. -/
def plan (slots : List Slot) (generation : Generation) (defaults : Defaults) :
    Strategy × Option Nat :=
  if slots.any fun slot => slot.pool.isEmpty then (.exhausted, none)
  else match generation.mode with
    | .combinatorial =>
        (.nested (.start (Slot.loopSizes slots)) (Slot.nestingOrder slots)
          (Slot.sampledIndexes slots), generation.maxImages)
    | .random =>
        let target := generation.maxImages.getD defaults.maxImages
        (.drawn [] (Slot.byName slots) (attemptBudget target defaults.attemptFactor)
          (Slot.randomSpace slots), some target)

def start (prepared : Prepared) (generation : Generation) (defaults : Defaults) (draws : Draws) :
    Combinations :=
  let (seeds, draws) := Seeds.start generation draws
  let (strategy, target) := plan prepared.slots generation defaults
  ⟨prepared, defaults.separator, seeds, draws, strategy, target, 0⟩

def assign (choice : List Nat) (places : List (Nat × Nat)) : List Nat :=
  places.foldl (fun choice (index, value) => choice.set index value) choice

/-- The choice of one turn of the loops: their digits at the slots they belong to, and a draw for
every slot that is no loop. -/
def turnChoice (slots : List Slot) (order sampled digits : List Nat) (draws : Draws) :
    List Nat × Draws :=
  let looped := assign (List.replicate slots.length 0) (order.zip digits)
  let (drawn, draws) := draws.belowEach (sampled.map (Slot.poolSize slots))
  (assign looped (sampled.zip drawn), draws)

def keyAt (slots : List Slot) (choice : List Nat) (index : Nat) : String :=
  match slots[index]? with
  | none => ""
  | some slot =>
      let key := (((choice[index]?).bind fun position => slot.pool[position]?).map
        Variation.key).getD ""
      slot.name ++ "=" ++ key ++ ";"

def choiceKey (slots : List Slot) (byName choice : List Nat) : String :=
  String.join (byName.map (keyAt slots choice))

structure Search where
  choice : Option (List Nat)
  made : List String
  attemptsLeft : Nat
  draws : Draws

/-- Draws until a choice is new, as long as there are attempts and choices left. -/
def search (slots : List Slot) (byName : List Nat) (space : Nat) (made : List String)
    (draws : Draws) : Nat → Search
  | 0 => ⟨none, made, 0, draws⟩
  | left + 1 =>
      -- A space that is used up costs neither an attempt nor a draw.
      if space ≤ made.length then ⟨none, made, left + 1, draws⟩
      else
        let (choice, draws) := draws.belowEach (Slot.poolSizes slots)
        let key := choiceKey slots byName choice
        if made.contains key then search slots byName space made draws left
        else ⟨some choice, key :: made, left, draws⟩

def choose (run : Combinations) : Option (List Nat) × Combinations :=
  let slots := run.prepared.slots
  match run.strategy with
  | .exhausted => (none, run)
  | .nested odometer order sampled =>
      match odometer.next? with
      | none => (none, run)
      | some (digits, odometer) =>
          let (choice, draws) := turnChoice slots order sampled digits run.draws
          (some choice, { run with draws, strategy := .nested odometer order sampled })
  | .drawn made byName attemptsLeft space =>
      let found := search slots byName space made run.draws attemptsLeft
      (found.choice,
        { run with
          draws := found.draws
          strategy := .drawn found.made byName found.attemptsLeft space })

/-- The variation that a choice gives to every slot; of several slots under one name the last
counts. -/
def chosenVariations (slots : List Slot) (choice : List Nat) : NameMap Variation :=
  .ofList ((slots.zip choice).filterMap fun (slot, position) =>
    (slot.pool[position]?).map fun variation => (slot.name, variation))

def emit (run : Combinations) (choice : List Nat) : Combination × Combinations :=
  let (positive, negative) := run.prepared.render choice
  let (seed, draws) := run.seeds.seedFor run.emitted run.draws
  ({ index := run.emitted
     positive := Text.Layout.normalize positive run.separator
     negative := Text.Layout.normalize negative run.separator
     seed
     variations := chosenVariations run.prepared.slots choice },
    { run with draws, emitted := run.emitted + 1 })

def isComplete (run : Combinations) : Bool :=
  run.target.any fun target => target ≤ run.emitted

def pull (run : Combinations) : Option Combination × Combinations :=
  if run.isComplete then (none, run)
  else match run.choose with
    | (none, later) => (none, later)
    | (some choice, later) =>
        let (combination, last) := later.emit choice
        (some combination, last)

def take : Nat → Combinations → List Combination × Combinations
  | 0, run => ([], run)
  | count + 1, run =>
      match run.pull with
      | (none, later) => ([], later)
      | (some combination, later) =>
          let (more, last) := take count later
          (combination :: more, last)

end Combinations

end PromptLoom
