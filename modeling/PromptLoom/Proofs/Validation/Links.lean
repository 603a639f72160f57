import PromptLoom.Proofs.Graph.Coverage
import PromptLoom.Proofs.Inheritance.Calls
import PromptLoom.Proofs.Validation.Clean

/-!
# The links of a graph

A link is listed for every document that refers to a parent, and for no other. Its findings belong
to the file of its document. Between chunks they hold an error exactly when the merge fails.
-/

namespace PromptLoom.Graph

open Relation Workspace Resolver

set_option autoImplicit false

variable {workspace : Workspace} {graph : Graph}

structure Linked (workspace : Workspace) (graph : Graph) (document parent : Document)
    (link : Link) : Prop where
  reads : graph.Reads workspace document link.child
  path : link.path = document.path
  implemented : link.child.implements = some link.reference
  leads : workspace.target link.reference document.path "implements" = .ok parent
  parentReads : graph.Reads workspace parent link.parent
  parentPath : link.parentPath = parent.path

theorem Charts.link_listed (charts : graph.Charts workspace []) {document parent : Document}
    {link : Link} (linked : Linked workspace graph document parent link) :
    link ∈ graph.nodes.filterMap graph.link? := by
  obtain ⟨node, member, place⟩ := List.mem_map.mp linked.reads.inside
  obtain ⟨other, otherHeld, otherPlace, known⟩ := charts.nodes node member
  obtain rfl := otherHeld.eq_of_location linked.reads.held (otherPlace.trans place)
  have up : graph.parent? node.location = some parent.location := by
    rw [place]
    exact charts.up_of linked.reads linked.implemented linked.leads
  have own : node.config = some link.child := by
    rw [known, linked.reads.read]
    rfl
  refine List.mem_filterMap.mpr ⟨node, member, ?_⟩
  have path : node.path = link.path := by
    rw [linked.path, Node.path, place, Document.path]
  have parentPath : Path.ofLocation parent.location = link.parentPath := by
    rw [linked.parentPath, Document.path]
  simp only [link?, own, linked.implemented, up, charts.config_read linked.parentReads, path,
    parentPath, Option.bind_eq_bind, Option.bind_some, Option.pure_def]

theorem Charts.listed_link (charts : graph.Charts workspace []) {link : Link}
    (listed : link ∈ graph.nodes.filterMap graph.link?) :
    ∃ document parent, Linked workspace graph document parent link := by
  obtain ⟨node, member, made⟩ := List.mem_filterMap.mp listed
  obtain ⟨document, held, place, known⟩ := charts.nodes node member
  simp only [link?, Option.bind_eq_bind, Option.bind_eq_some_iff, Option.pure_def] at made
  obtain ⟨child, own, reference, implemented, parentPlace, up, config, found, made⟩ := made
  obtain rfl := Option.some.inj made
  have read : document.read = .ok child := to_option_some (known.symm.trans own)
  have inside : document.location ∈ graph.locations := by
    rw [place]
    exact List.mem_map_of_mem member
  have reads : graph.Reads workspace document child := ⟨held, inside, read⟩
  rw [← place] at up
  obtain ⟨other, parent, written, leads, arrived⟩ := charts.target_leads reads up
  obtain rfl := Option.some.inj ((Config.parent_reference.mp written).symm.trans implemented)
  obtain ⟨met, _⟩ := charts.opened document child reads _ _ parent written leads
  have parentInside := Charts.met_inside met
  rw [← arrived, charts.config_of (target_holds leads) parentInside] at found
  refine ⟨document, parent, reads, ?_, implemented, leads,
    ⟨target_holds leads, parentInside, to_option_some found⟩, ?_⟩
  · rw [Node.path, ← place, Document.path]
  · rw [← arrived, Document.path]

theorem Linked.unique {document parent other otherParent : Document} {link otherLink : Link}
    (named : workspace.tree.WellNamed) (linked : Linked workspace graph document parent link)
    (again : Linked workspace graph other otherParent otherLink)
    (same : link.path = otherLink.path) : document = other ∧ link = otherLink := by
  have path : document.path = other.path := by rw [← linked.path, same, again.path]
  obtain rfl := linked.reads.held.eq_of_path named again.reads.held path
  refine ⟨rfl, ?_⟩
  obtain ⟨path, child, reference, parentPath, config⟩ := link
  obtain ⟨otherPath, otherChild, otherReference, otherParentPath, otherConfig⟩ := otherLink
  obtain rfl : child = otherChild :=
    Except.ok.inj (linked.reads.read.symm.trans again.reads.read)
  obtain rfl : reference = otherReference :=
    Option.some.inj (linked.implemented.symm.trans again.implemented)
  obtain rfl := Except.ok.inj (linked.leads.symm.trans again.leads)
  obtain rfl : config = otherConfig :=
    Except.ok.inj (linked.parentReads.read.symm.trans again.parentReads.read)
  obtain rfl : parentPath = otherParentPath := linked.parentPath.trans again.parentPath.symm
  obtain rfl : path = otherPath := same
  rfl

theorem link_finding_file {link : Link} {finding : Finding} (member : finding ∈ link.findings) :
    finding.file = link.path := by
  obtain ⟨path, child, reference, parentPath, parent⟩ := link
  have layered : ∀ finding ∈ Link.layerFindings ⟨path, child, reference, parentPath, parent⟩,
      finding.file = path := by
    intro finding member
    cases parent with
    | template => cases member
    | prompt | chunk | variations =>
        rw [List.mem_singleton.mp member]
        rfl
  cases child with
  | template | prompt => exact layered finding member
  | variations => cases member
  | chunk own =>
      cases parent with
      | template | prompt | variations =>
          rw [List.mem_singleton.mp member]
          rfl
      | chunk base =>
          rcases List.mem_append.mp member with nested | typed
          · obtain ⟨_, _, rfl⟩ := List.mem_map.mp nested
            rfl
          · unfold Link.typeFindings at typed
            split at typed
            · split at typed
              · cases typed
              · rw [List.mem_singleton.mp typed]
                rfl
            · rw [List.mem_singleton.mp typed]
              rfl
            · cases typed

theorem Charts.link_of (charts : graph.Charts workspace []) (opened : graph.openErrors = [])
    (readable : graph.readErrors = []) {document : Document} {config : Config} {reference : String}
    (reads : graph.Reads workspace document config)
    (implemented : config.implements = some reference) :
    ∃ parent parentConfig, Linked workspace graph document parent
      ⟨document.path, config, reference, parent.path, parentConfig⟩ := by
  obtain ⟨parent, parentConfig, leads, parentReads⟩ :=
    charts.reads_target opened readable reads (Config.parent_reference.mpr implemented)
  exact ⟨parent, parentConfig, reads, rfl, implemented, leads, parentReads, rfl⟩

/-! ### Between chunks -/

/-- The checks of a link between chunks are those of the merge. -/
theorem link_fits {path parentPath : Path} {child base : ChunkConfig} {reference : String}
    (clean : ∀ finding ∈ Link.findings ⟨path, .chunk child, reference, parentPath, .chunk base⟩,
      finding.isError = false) : ResolvedChunk.extendFault? base child = none := by
  simp only [Link.findings, List.mem_append] at clean
  have alone : base.implements = none := by
    rcases above : base.implements with _ | grandparent
    · rfl
    · simp [Link.nestedFindings, above, Finding.fault, Finding.of_error_is_error] at clean
  have types : ∀ own inherited, child.chunkType = some own → base.chunkType = some inherited →
      own = inherited := by
    intro own inherited ownType inheritedType
    apply Decidable.byContradiction
    intro differ
    have mismatch : Finding.fault path "type" (.chunkTypeMismatch own inherited) ∈
        Link.typeFindings path parentPath base child := by
      simp [Link.typeFindings, ownType, inheritedType, differ]
    cases clean _ (.inr mismatch)
  simp only [ResolvedChunk.extendFault?, alone]
  split
  · next own inherited ownType inheritedType =>
      rw [if_pos (types own inherited ownType inheritedType)]
  · rfl

theorem link_misfits {path parentPath : Path} {child base : ChunkConfig} {reference : String}
    {fault : DocumentError} (misfit : ResolvedChunk.extendFault? base child = some fault) :
    ∃ finding ∈ Link.findings ⟨path, .chunk child, reference, parentPath, .chunk base⟩,
      finding.isError = true := by
  apply Decidable.byContradiction
  intro silent
  have fits := link_fits fun finding member =>
    eq_false_of_ne_true fun grave => silent ⟨finding, member, grave⟩
  cases misfit.symm.trans fits

theorem link_fits_silent {path parentPath : Path} {child base : ChunkConfig} {reference : String}
    (fits : ResolvedChunk.extendFault? base child = none) :
    ∀ finding ∈ Link.findings ⟨path, .chunk child, reference, parentPath, .chunk base⟩,
      finding.isError = false := by
  intro finding member
  rcases List.mem_append.mp member with nested | typed
  · obtain ⟨grandparent, above, _⟩ := List.mem_map.mp nested
    rw [Option.mem_toList] at above
    simp only [ResolvedChunk.extendFault?, Option.mem_def.mp above] at fits
    cases fits
  · unfold Link.typeFindings at typed
    split at typed
    · next own inherited ownType inheritedType =>
        split at typed
        · cases typed
        · next differ =>
            simp only [ResolvedChunk.extendFault?, ownType, inheritedType, if_neg differ] at fits
            split at fits <;> cases fits
    · rw [List.mem_singleton.mp typed]
      rfl
    · cases typed

end PromptLoom.Graph
