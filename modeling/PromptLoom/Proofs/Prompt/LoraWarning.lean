import PromptLoom.Proofs.Chunk.Scanning
import PromptLoom.Proofs.Prompt.Mentions
import PromptLoom.Proofs.Prompt.Preparation
import PromptLoom.Proofs.Prompt.Unfolding
import PromptLoom.Proofs.Text.Replacement

/-!
# The warning about LoRAs that are not rendered

The warning looks for the marker `{loras}` in both bodies, one behind the other, before the mentions
are expanded; the LoRA text is put in the place of the placeholders named `loras` afterwards. The two
agree on a marker in the fixed text of a body. They part where such a placeholder has a selector,
where a mention holds the marker or expands to it, and where a placeholder is made of two texts that
come to stand side by side.
-/

namespace PromptLoom

open Text

set_option autoImplicit false

/-! ### The marker in a text -/

/-- The placeholder that the marker is read as. -/
def lorasMark : Placeholder := ⟨"loras", none⟩

theorem loras_mark_printed : lorasMark.printed = lorasMarker.toList := by decide

theorem loras_mark_formed : lorasMark.WellFormed :=
  ⟨.single (by decide), by simp [lorasMark]⟩

theorem named_loras_iff {found : Placeholder} :
    found.name = "loras" ↔ found = lorasMark ∨ ∃ selector, found = ⟨"loras", some selector⟩ := by
  obtain ⟨name, _ | selector⟩ := found
  · simp [lorasMark]
  · simp [lorasMark]

theorem Chunk.lifted_not_loras (chunkName : String) (hole : Placeholder) :
    (lifted chunkName hole).name ≠ "loras" := by
  intro same
  have dot : '.' ∈ (lifted chunkName hole).name.toList := by simp [lifted]
  rw [same] at dot
  exact absurd dot (by decide)

/-! ### The marker in a body -/

namespace BodyPart

variable {before : List Char} {parts : List BodyPart} {found : Placeholder}

theorem straddling_sign (signless : '@' ∉ found.printed) (text : List Char) {behind : List Char}
    (sign : ∀ c ∈ behind.head?, c = '@') : straddling text behind ≠ some found := by
  intro across
  obtain ⟨inside, front, rest, -, rfl, -, written⟩ := straddling_eq_some across
  rw [written] at signless
  cases front with
  | nil => cases sign '}' rfl
  | cons c front =>
      obtain rfl := sign c rfl
      simp at signless

theorem Written.straddling {after source : List Char} {parsed : Except MentionError ChunkRef}
    (written : Written after source parsed) : straddling source after = none := by
  cases written with
  | @bare name ident longest =>
      rcases across : Text.straddling ('@' :: name) after with _ | found
      · rfl
      · obtain ⟨inside, _, _, stands, -⟩ := straddling_eq_some across
        rcases List.mem_cons.mp (stands.subset (List.mem_cons_self ..)) with same | member
        · cases same
        · cases ident_without_braces ident '{' member
  | @braced inside balanced =>
      apply straddling_closed
      rw [← List.cons_append, ← List.cons_append, open_end_behind_close]
      rfl
  | unterminated last unclosed =>
      rw [last]
      exact straddling_nil _

/-- What is printed from the first mention on. -/
def printedBehind (parts : List BodyPart) : List Char :=
  ((runs parts).2.flatMap fun (part, run) => [printed part, run]).flatten

theorem printed_runs (parts : List BodyPart) :
    parts.flatMap printed = (runs parts).1 ++ printedBehind parts :=
  shown_runs (fun _ => rfl) parts

theorem Scanned.sign (scanned : Scanned before parts) :
    ∀ c ∈ (printedBehind parts).head?, c = '@' := by
  induction scanned with
  | done => simp [printedBehind, runs]
  | char plain others ih => exact ih
  | @mention before source parsed rest boundary written others ih =>
      intro c first
      cases written <;> exact (Option.some.inj first).symm

section Signless

variable (scanned : Scanned before parts) (signless : '@' ∉ found.printed)
include scanned signless

theorem Scanned.mem_placeholders_lead :
    found ∈ placeholdersIn (parts.flatMap printed) ↔ found ∈ placeholdersIn (runs parts).1 ∨
      found ∈ placeholdersIn (printedBehind parts) := by
  have apart := straddling_sign signless (runs parts).1 scanned.sign
  rw [printed_runs, mem_placeholders_append, or_iff_right apart]

theorem Scanned.mem_placeholders_behind :
    found ∈ placeholdersIn (printedBehind parts) ↔
      (∃ pair ∈ (runs parts).2, found ∈ placeholdersIn pair.2) ∨
        ∃ pair ∈ (runs parts).2, found ∈ placeholdersIn pair.1.printed := by
  induction scanned with
  | done => simp [printedBehind, runs, placeholders_in_nil]
  | char plain others ih => exact ih
  | @mention before source parsed rest boundary written others ih =>
      have whole : printedBehind (.mention source parsed :: rest) =
          source ++ rest.flatMap printed := by
        rw [printed_runs, printedBehind, printedBehind, runs, List.flatMap_cons, List.flatten_append]
        simp [printed]
      have apart : straddling source (rest.flatMap printed) ≠ some found := by
        simp [written.straddling]
      rw [whole, mem_placeholders_append, or_iff_right apart,
        others.mem_placeholders_lead signless, ih]
      have own : printed (.mention source parsed) = source := rfl
      simp only [runs, List.exists_mem_cons_iff, own, or_assoc, or_left_comm]

theorem Scanned.mem_placeholders :
    found ∈ placeholdersIn (parts.flatMap printed) ↔
      (∃ run ∈ fixedText parts, found ∈ placeholdersIn run) ∨
        ∃ part ∈ mentions parts, found ∈ placeholdersIn part.printed := by
  rw [scanned.mem_placeholders_lead signless, scanned.mem_placeholders_behind signless, ← or_assoc]
  simp only [fixedText, mentions, List.exists_mem_cons_iff, List.mem_map, exists_exists_and_eq_and]

end Signless

end BodyPart

/-! ### The bodies of a prompt -/

/-- A body of a prompt, with the state that its mentions are expanded from. -/
structure OpenBody where
  field : String
  parts : List BodyPart
  state : Expansion

namespace OpenBody

variable (workspace : Workspace) (config : ResolvedConfig) (body : OpenBody)

def texts : List (List Char) :=
  Expansion.texts workspace config body.field body.state body.parts

def shown : List (List Char) :=
  (Expansion.expandRuns workspace config body.field body.state
    (BodyPart.runs body.parts).2).map Prod.fst

/-- The marker stands in the fixed text. -/
def WritesMarker : Prop :=
  ∃ run ∈ BodyPart.fixedText body.parts, lorasMark ∈ placeholdersIn run

def MentionsMarker : Prop :=
  ∃ part ∈ BodyPart.mentions body.parts, lorasMark ∈ placeholdersIn part.printed

/-- A placeholder named `loras` stands in the fixed text with a selector. -/
def SelectsLoras : Prop :=
  ∃ run ∈ BodyPart.fixedText body.parts, ∃ selector,
    ⟨"loras", some selector⟩ ∈ placeholdersIn run

/-- A mention shows a placeholder named `loras`. -/
def ShowsLoras : Prop :=
  ∃ text ∈ body.shown workspace config, ∃ found ∈ placeholdersIn text, found.name = "loras"

/-- A placeholder named `loras` begins in fixed text or in what a mention shows and ends behind it. -/
def JoinsLoras : Prop :=
  ∃ front text behind found, body.texts workspace config = front ++ text :: behind ∧
    straddling text behind.flatten = some found ∧ found.name = "loras"

variable {workspace config}

theorem mem_texts {body : OpenBody} {text : List Char} : text ∈ body.texts workspace config ↔
    text ∈ BodyPart.fixedText body.parts ∨ text ∈ body.shown workspace config := by
  have fixed : (Expansion.expandRuns workspace config body.field body.state
      (BodyPart.runs body.parts).2).map Prod.snd = (BodyPart.runs body.parts).2.map Prod.snd :=
    Expansion.expand_runs_fixed _ _
  rw [texts, Expansion.texts, BodyPart.fixedText, shown, ← fixed, List.mem_cons, List.mem_cons,
    List.mem_flatMap, or_assoc]
  refine or_congr_right ?_
  simp only [List.mem_map, List.mem_cons, List.not_mem_nil, or_false]
  constructor
  · rintro ⟨pair, member, rfl | rfl⟩
    · exact .inr ⟨pair, member, rfl⟩
    · exact .inl ⟨pair, member, rfl⟩
  · rintro (⟨pair, member, rfl⟩ | ⟨pair, member, rfl⟩)
    · exact ⟨pair, member, .inr rfl⟩
    · exact ⟨pair, member, .inl rfl⟩

/-- Where the placeholders named `loras` of an expanded body come from. -/
theorem expanded_loras (body : OpenBody) :
    (∃ found ∈ placeholdersIn
        (Expansion.expandParts workspace config body.field body.state body.parts).1,
      found.name = "loras") ↔
      body.WritesMarker ∨ body.SelectsLoras ∨ body.ShowsLoras workspace config ∨
        body.JoinsLoras workspace config := by
  rw [← Expansion.texts_flatten, placeholders_in_flatten]
  constructor
  · rintro ⟨found, member, named⟩
    rcases mem_placeholders_across.mp member with
      ⟨text, among, inside⟩ | ⟨front, text, behind, cut, across⟩
    · rcases mem_texts.mp among with fixed | shown
      · rcases named_loras_iff.mp named with rfl | ⟨selector, rfl⟩
        · exact .inl ⟨text, fixed, inside⟩
        · exact .inr (.inl ⟨text, fixed, selector, inside⟩)
      · exact .inr (.inr (.inl ⟨text, shown, found, inside, named⟩))
    · exact .inr (.inr (.inr ⟨front, text, behind, found, cut, across, named⟩))
  · rintro (⟨run, fixed, inside⟩ | ⟨run, fixed, selector, inside⟩ |
      ⟨text, shown, found, inside, named⟩ | ⟨front, text, behind, found, cut, across, named⟩)
    · exact ⟨_, mem_placeholders_across.mpr (.inl ⟨run, mem_texts.mpr (.inl fixed), inside⟩), rfl⟩
    · exact ⟨_, mem_placeholders_across.mpr (.inl ⟨run, mem_texts.mpr (.inl fixed), inside⟩), rfl⟩
    · exact ⟨found, mem_placeholders_across.mpr (.inl ⟨text, mem_texts.mpr (.inr shown), inside⟩),
        named⟩
    · exact ⟨found, mem_placeholders_across.mpr (.inr ⟨front, text, behind, cut, across⟩), named⟩

end OpenBody

theorem marker_in_body (body field : String) (state : Expansion) :
    lorasMark ∈ placeholdersIn body.toList ↔
      (OpenBody.mk field (BodyPart.ofText body) state).WritesMarker ∨
        (OpenBody.mk field (BodyPart.ofText body) state).MentionsMarker := by
  have signless : '@' ∉ lorasMark.printed := by decide
  have parts := (BodyPart.of_text_scanned body).mem_placeholders signless
  rwa [BodyPart.flat_map_printed_of_text] at parts

/-- The bodies of a prompt in the order in which they are expanded. -/
def ResolvedConfig.openBodies (workspace : Workspace) (config : ResolvedConfig) (scope : Scope)
    (resolver : Resolver) : List OpenBody :=
  let positive : OpenBody :=
    ⟨"prompt", BodyPart.ofText config.positive, ⟨resolver, scope, [], []⟩⟩
  let state := (Expansion.expandParts workspace config "prompt" positive.state positive.parts).2
  [positive, ⟨"negative-prompt", BodyPart.ofText config.negative, state⟩]

/-- The marker is found in the two bodies one behind the other if one of them holds it, or if one
begins it and the other ends it. -/
theorem marker_in_bodies (workspace : Workspace) (config : ResolvedConfig) (scope : Scope)
    (resolver : Resolver) :
    Text.contains (config.positive ++ config.negative) lorasMarker = true ↔
      straddling config.positive.toList config.negative.toList = some lorasMark ∨
        ∃ body ∈ config.openBodies workspace scope resolver,
          body.WritesMarker ∨ body.MentionsMarker := by
  have written : Text.contains (config.positive ++ config.negative) lorasMarker = true ↔
      lorasMark ∈ placeholdersIn (config.positive.toList ++ config.negative.toList) := by
    rw [Text.contains, has_word_iff, mem_placeholders_in_iff, and_iff_right loras_mark_formed,
      loras_mark_printed, String.toList_append]
  rw [written, mem_placeholders_append, marker_in_body config.positive "prompt"
    ⟨resolver, scope, [], []⟩, marker_in_body config.negative "negative-prompt"
    (Expansion.expandParts workspace config "prompt" ⟨resolver, scope, [], []⟩
      (BodyPart.ofText config.positive)).2, or_left_comm]
  simp only [ResolvedConfig.openBodies, List.exists_mem_cons_iff, List.not_mem_nil, false_and,
    exists_false, or_false]

section Ready

variable {workspace : Workspace} {separator : String} {config : ResolvedConfig} {scope : Scope}
  {resolver : Resolver} {draws : Draws}

/-- The warning is recorded where LoRAs are declared and the marker is not found. -/
theorem loras_warned_iff :
    Notice.lorasNotRendered.finding config.source "loras" ∈
        (prepare workspace separator config scope resolver draws).warnings ↔
      config.loras.isEmpty = false ∧
        ¬ (straddling config.positive.toList config.negative.toList = some lorasMark ∨
          ∃ body ∈ config.openBodies workspace scope resolver,
            body.WritesMarker ∨ body.MentionsMarker) := by
  rw [← marker_in_bodies workspace config scope resolver]
  have others : Notice.lorasNotRendered.finding config.source "loras" ∉
      (Expansion.expandBody workspace config "negative-prompt" config.negative
        (Expansion.expandBody workspace config "prompt" config.positive
          ⟨resolver, scope, [], []⟩).2).2.warnings := by
    intro member
    rcases Expansion.expand_parts_warnings member with earlier | other
    · rcases Expansion.expand_parts_warnings earlier with none | other
      · cases none
      · simp [Notice.finding] at other
    · simp [Notice.finding] at other
  have recorded : Notice.lorasNotRendered.finding config.source "loras" ∈
      (prepare workspace separator config scope resolver draws).warnings ↔
      Notice.lorasNotRendered.finding config.source "loras" ∈ lorasWarning config :=
    List.mem_append.trans (or_iff_right others)
  rw [recorded, lorasWarning]
  cases config.loras.isEmpty <;>
    cases Text.contains (config.positive ++ config.negative) lorasMarker <;> simp

variable {prepared : Prepared}

/-- Some placeholder of the two texts is turned into the LoRA text. -/
def Prepared.RendersLoras (prepared : Prepared) : Prop :=
  ∃ found ∈ placeholders prepared.positiveText ++ placeholders prepared.negativeText,
    found.name = "loras"

instance (prepared : Prepared) : Decidable prepared.RendersLoras :=
  inferInstanceAs (Decidable (∃ found ∈ _, _))

theorem prepared_loras_turned
    (ready : (prepare workspace separator config scope resolver draws).result = .ok prepared) :
    let turned (name : String) : String :=
      if name = "loras" then renderLoras config.loras separator else ""
    String.ofList (prepared.positive.flatMap (Segment.shown fun _ => "")) =
        substituted turned prepared.positiveText ∧
      String.ofList (prepared.negative.flatMap (Segment.shown fun _ => "")) =
        substituted turned prepared.negativeText := by
  intro turned
  have loraTags : turned "loras" = renderLoras config.loras separator := if_pos rfl
  have silent (name : String) (_ : Placeholder.isReserved name = true) (other : name ≠ "loras") :
      turned name = "" := if_neg other
  refine (prepare_shown ready loraTags silent fun index name named => ?_).2
  have free := (SlotTable.mem_slot_names.mp (List.mem_of_getElem? named)).2
  refine (if_neg ?_).symm
  rintro rfl
  cases free

theorem renders_loras_iff
    (ready : (prepare workspace separator config scope resolver draws).result = .ok prepared) :
    prepared.RendersLoras ↔ ∃ body ∈ config.openBodies workspace scope resolver,
      body.WritesMarker ∨ body.SelectsLoras ∨ body.ShowsLoras workspace config ∨
        body.JoinsLoras workspace config := by
  obtain ⟨-, -, -, rfl⟩ := prepare_ready ready
  have shows (field body : String) (state : Expansion) :
      placeholders (Expansion.expandBody workspace config field body state).1 =
        placeholdersIn
          (Expansion.expandParts workspace config field state (BodyPart.ofText body)).1 :=
    placeholders_of_list _
  simp only [Prepared.RendersLoras, shows, List.mem_append, or_and_right, exists_or,
    ResolvedConfig.openBodies, List.exists_mem_cons_iff, List.not_mem_nil, false_and, exists_false,
    or_false, ← OpenBody.expanded_loras]
  rfl

/-- Every text that a mention shows is that of a filled chunk, and a placeholder named `loras` in it
comes with a text for a placeholder of the chunk, or from where two texts meet. -/
theorem shown_texts_filled
    (ready : (prepare workspace separator config scope resolver draws).result = .ok prepared)
    {body : OpenBody} (among : body ∈ config.openBodies workspace scope resolver)
    {text : List Char} (member : text ∈ body.shown workspace config) :
    ∃ source ref chunk own caller, .mention source (.ok ref) ∈ body.parts ∧
      ShownBy workspace config ref chunk own caller (String.ofList text) ∧
      ∀ found ∈ placeholdersIn text, found.name = "loras" →
        (∃ hole ∈ placeholders chunk.body, ∃ value,
          Chunk.Supplied chunk ref own caller hole value ∧ found ∈ placeholders value) ∨
        ∃ front piece behind, Chunk.filledTexts chunk ref own caller = front ++ piece :: behind ∧
          straddling piece behind.flatten = some found := by
  have clean := prepare_expanded ready
  have first : (Expansion.expandParts workspace config "prompt" ⟨resolver, scope, [], []⟩
      (BodyPart.ofText config.positive)).2.errors = [] := by
    have kept := Expansion.expand_parts_errors workspace config "negative-prompt"
      (Expansion.expandBody workspace config "prompt" config.positive
        ⟨resolver, scope, [], []⟩).2 (BodyPart.ofText config.negative)
    rw [show (Expansion.expandParts workspace config "negative-prompt" _ _).2.errors = [] from
      clean] at kept
    exact List.prefix_nil.mp kept
  have cleanBody : (Expansion.expandParts workspace config body.field body.state
      body.parts).2.errors = [] := by
    rcases List.mem_cons.mp among with rfl | other
    · exact first
    · obtain rfl := List.mem_singleton.mp other
      exact clean
  have idents : ∀ source ref, .mention source (.ok ref) ∈ body.parts →
      isIdent ref.name.toList = true := by
    intro source ref inside
    rcases List.mem_cons.mp among with rfl | other
    · exact BodyPart.scan_name_ident inside
    · obtain rfl := List.mem_singleton.mp other
      exact BodyPart.scan_name_ident inside
  obtain ⟨source, ref, chunk, own, caller, mentioned, shown⟩ :=
    Expansion.expand_runs_shown idents cleanBody member
  refine ⟨source, ref, chunk, own, caller, mentioned, shown, fun found inside named => ?_⟩
  refine (Chunk.filled_from shown.fills shown.ident
    ((placeholders_of_list text).symm ▸ inside)).imp ?_ id
  rintro ⟨hole, written, rfl | supplied⟩
  · cases Chunk.lifted_not_loras _ _ named
  · exact ⟨hole, written, supplied⟩

/-- The warning about LoRAs that are not rendered, for a prompt that could be prepared. The LoRA text
is put in the place of the placeholders named `loras` and of no others. The warning goes by markers
that are written in fixed text, in mentions or from one body into the other; the placeholders named
`loras` are those markers of the fixed text, and what selectors, expansions and their edges bring. So
the warning is right where a marker is written in fixed text, and else just if there are markers of
the one kind where there are placeholders of the other. -/
theorem loras_warning_exact
    (ready : (prepare workspace separator config scope resolver draws).result = .ok prepared) :
    let bodies := config.openBodies workspace scope resolver
    let declared := config.loras.isEmpty = false
    let warned := Notice.lorasNotRendered.finding config.source "loras" ∈
      (prepare workspace separator config scope resolver draws).warnings
    let written := ∃ body ∈ bodies, body.WritesMarker
    let mentioned := straddling config.positive.toList config.negative.toList = some lorasMark ∨
      ∃ body ∈ bodies, body.MentionsMarker
    let brought := ∃ body ∈ bodies, body.SelectsLoras ∨ body.ShowsLoras workspace config ∨
      body.JoinsLoras workspace config
    let turned (name : String) : String :=
      if name = "loras" then renderLoras config.loras separator else ""
    (String.ofList (prepared.positive.flatMap (Segment.shown fun _ => "")) =
        substituted turned prepared.positiveText ∧
      String.ofList (prepared.negative.flatMap (Segment.shown fun _ => "")) =
        substituted turned prepared.negativeText) ∧
    (warned ↔ declared ∧ ¬ (written ∨ mentioned)) ∧
    (prepared.RendersLoras ↔ written ∨ brought) ∧
    ((warned ↔ declared ∧ ¬ prepared.RendersLoras) ↔
      (declared → ¬ written → (mentioned ↔ brought))) ∧
    ∀ body ∈ bodies, ∀ text ∈ body.shown workspace config, ∃ source ref chunk own caller,
      .mention source (.ok ref) ∈ body.parts ∧
      ShownBy workspace config ref chunk own caller (String.ofList text) ∧
      ∀ found ∈ placeholdersIn text, found.name = "loras" →
        (∃ hole ∈ placeholders chunk.body, ∃ value,
          Chunk.Supplied chunk ref own caller hole value ∧ found ∈ placeholders value) ∨
        ∃ front piece behind, Chunk.filledTexts chunk ref own caller = front ++ piece :: behind ∧
          straddling piece behind.flatten = some found := by
  intro bodies declared warned written mentioned brought turned
  have warns : warned ↔ declared ∧ ¬ (written ∨ mentioned) := by
    refine loras_warned_iff.trans ?_
    simp only [declared, written, mentioned, bodies, and_or_left, exists_or, or_left_comm]
  have renders : prepared.RendersLoras ↔ written ∨ brought := by
    refine (renders_loras_iff ready).trans ?_
    simp only [written, brought, bodies, and_or_left, exists_or]
  refine ⟨prepared_loras_turned ready, warns, renders, ?_,
    fun body among text member => shown_texts_filled ready among member⟩
  clear_value written mentioned brought declared
  rw [warns, renders]
  constructor
  · intro right present unwritten
    simpa [present, unwritten, not_iff_not] using right
  · intro right
    by_cases present : declared
    · by_cases marked : written
      · simp [marked]
      · simp [marked, right present marked]
    · simp [present]

def tornConfig : ResolvedConfig :=
  { paintedConfig with positive := "\x7blo", negative := "ras\x7d" }

def tornPrompt : Prepared :=
  ⟨[.text "\x7blo"], [.text "ras\x7d"], [], "\x7blo", "ras\x7d"⟩

theorem torn_marker_unwarned :
    (prepare ⟨.empty, []⟩ "," tornConfig .empty (.start .empty) (.seeded 0)).result =
        .ok tornPrompt ∧
      Notice.lorasNotRendered.finding tornConfig.source "loras" ∉
        (prepare ⟨.empty, []⟩ "," tornConfig .empty (.start .empty) (.seeded 0)).warnings ∧
      ¬ tornPrompt.RendersLoras := by
  have ready : (prepare ⟨.empty, []⟩ "," tornConfig .empty (.start .empty) (.seeded 0)).result =
      .ok tornPrompt := by
    decide +kernel
  have torn : straddling tornConfig.positive.toList tornConfig.negative.toList =
      some lorasMark := by
    decide +kernel
  obtain ⟨-, warns, -⟩ := loras_warning_exact ready
  exact ⟨ready, fun warned => (warns.mp warned).2 (.inr (.inl torn)), by decide +kernel⟩

/-- The LoRA text is shown in the place of a placeholder with a selector, which the warning does not
see. -/
def chosenConfig : ResolvedConfig :=
  { paintedConfig with positive := "\x7bloras[2]\x7d", negative := "" }

theorem chosen_loras_warned : ∃ prepared,
    (prepare ⟨.empty, []⟩ "," chosenConfig .empty (.start .empty) (.seeded 0)).result =
        .ok prepared ∧
      prepared.positive = [.text "<lora:x:0.5>"] ∧ prepared.RendersLoras ∧
      Notice.lorasNotRendered.finding chosenConfig.source "loras" ∈
        (prepare ⟨.empty, []⟩ "," chosenConfig .empty (.start .empty) (.seeded 0)).warnings := by
  refine ⟨⟨[.text "<lora:x:0.5>"], [], [], chosenConfig.positive, ""⟩, ?_, rfl, ?_, ?_⟩
  · decide +kernel
  · decide +kernel
  · decide +kernel

end Ready

end PromptLoom
