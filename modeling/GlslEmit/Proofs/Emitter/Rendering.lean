/-
# The text that a history prescribes

A reference rendering of a history of accepted commands, which knows no state: every command
contributes its own declarations or lines, with the numbers that the commands before it leave.

* `declarationsAfter`, `interfaceAfter` and `lastActivation` say what a command contributes to the
  preamble, to a header and to a body;
* `Emitter.Reflects` says that an emitter holds exactly the contributions of a history;
* `Emitter.reflects_of_chain` and `Emitter.reflects_run`: after a run, the emitter reflects the
  accepted commands;
* `Emitter.isActivated_run`: the begun stages, whatever was written to their headers.
-/
import GlslEmit.Proofs.Emitter.Region
import GlslEmit.Proofs.Emitter.Activation

namespace GlslEmit

namespace Emitter

/-! ## Contributions to the preamble and to the headers -/

namespace Command

/-- Whether a command declares a numbered block. -/
def isBlock : Command → Bool
  | declareBinding v => v.type.isBuffer
  | _ => false

/-- Whether a command declares a value that is passed between stages. -/
def isVarying : Command → Bool
  | declareVarying _ _ _ => true
  | _ => false

/-- The name of the table that a command needs. -/
def table? : Command → Option String
  | declareBinding v =>
    if v.type.isBuffer then none else v.type.resourceSpelling.toOption.map (·.table)
  | _ => none

end Command

/-- What an accepted command adds to the preamble behind some others.  Blocks are numbered in
order, and a table that a command before it needed is not declared again. -/
def declarationsAfter (sizes : TableSizes) (past : List Command) : Command → List Declaration
  | .declareStruct s => (structDeclaration s).toOption.toList
  | .declareUniform v => (uniformDeclaration v).toOption.toList
  | .declareBinding v =>
    match bindingForm sizes (UInt32.ofNat (past.countP Command.isBlock)) v with
    | .error _ => []
    | .ok (.block b) => [.bufferBlock b]
    | .ok (.table t) => if t.name ∈ past.filterMap Command.table? then [] else [.table t]
  | .declareIndices max => [.pushConstants (subIndexFields max)]
  | _ => []

/-- What an accepted command adds to the header of a stage behind some others.  The values that are
passed between stages take the locations in order. -/
def interfaceAfter (s : Stage) (past : List Command) : Command → List InterfaceDeclaration
  | .declareVertexInput v =>
    if .vertex = s then (locatedValue "vertex input" .input v).toOption.toList.map .located else []
  | .declareFragmentOutput v =>
    if .fragment = s then
      (locatedValue "fragment output" .output v).toOption.toList.map .located
    else []
  | .declareAttachment v =>
    if .fragment = s then
      v.component.attachmentToken?.toList.map fun token => .attachment v.index token v.name
    else []
  | .declareVarying v producer consumer =>
    let location := UInt32.ofNat (past.countP Command.isVarying)
    (varyingToken? v).toList.flatMap fun token =>
      (if producer = s then [.located (varyingValue location .output producer token v)] else []) ++
      (if consumer = s then [.located (varyingValue location .input consumer token v)] else [])
  | _ => []

/-! ## Reflection -/

/-- The preamble holds the contributions of a history, with its numbers and its tables. -/
structure PreambleReflects (sizes : TableSizes) (history : List Command) (g : Emitter) : Prop where
  sizes_eq : g.sizes = sizes
  declarations : g.declarations = contributions (declarationsAfter sizes) history
  nextBlock : g.nextBlock = UInt32.ofNat (history.countP Command.isBlock)
  tables : ∀ name, g.tables.contains name = true ↔ name ∈ history.filterMap Command.table?

/-- The headers hold the contributions of a history, with its locations. -/
structure HeadersReflect (history : List Command) (g : Emitter) : Prop where
  header : ∀ s, (g.outputs.get s).header = contributions (interfaceAfter s) history
  nextLocation : g.nextLocation = UInt32.ofNat (history.countP Command.isVarying)

/-- The bodies hold the last activations of a history; the active stage is the one whose last
activation is not over. -/
structure BodiesReflect (history : List Command) (g : Emitter) : Prop where
  body : ∀ s, (g.outputs.get s).body =
    if hasBegun s history then
      some ⟨contributions Statement.linesAfter (lastActivation s history), hasEnded s history⟩
    else none
  active : ∀ s, g.active = some s ↔ hasBegun s history = true ∧ hasEnded s history = false
  depth : ∀ s, g.active = some s → g.depth = Statement.depthAfter (lastActivation s history)
  unpacked : ∀ s, g.active = some s → ∀ index,
    g.unpacked.contains index = true ↔
      index ∈ (lastActivation s history).filterMap Statement.unpackedIndex?

/-- An emitter holds exactly the contributions of a history. -/
structure Reflects (sizes : TableSizes) (history : List Command) (g : Emitter) : Prop where
  preamble : PreambleReflects sizes history g
  headers : HeadersReflect history g
  bodies : BodiesReflect history g

theorem reflects_new (sizes : TableSizes) : Reflects sizes [] (new sizes) where
  preamble := ⟨rfl, rfl, rfl, fun name => by simp [new]⟩
  headers := ⟨fun s => by simp [new, contributions, contributionsAfter], rfl⟩
  bodies := by
    refine ⟨fun s => by simp [new, hasBegun], fun s => by simp [new, hasBegun], ?_, ?_⟩
    · intro s hs
      cases hs
    · intro s hs
      cases hs

/-! ## One more command -/

variable {sizes : TableSizes} {history : List Command} {g g' : Emitter} {c : Command}

theorem numbered_snoc (count : Nat) : UInt32.ofNat count + 1 = UInt32.ofNat (count + 1) := by
  rw [UInt32.ofNat_add]
  rfl

theorem countP_snoc_of_false {p : Command → Bool} (hp : p c = false) :
    (history ++ [c]).countP p = history.countP p := by
  simp [hp]

theorem countP_snoc_of_true {p : Command → Bool} (hp : p c = true) :
    (history ++ [c]).countP p = history.countP p + 1 := by
  simp [hp]

theorem mem_filterMap_snoc {α β : Type} (f : α → Option β) (xs : List α) (x : α) (b : β) :
    b ∈ (xs ++ [x]).filterMap f ↔ b ∈ xs.filterMap f ∨ f x = some b := by
  simp [List.filterMap_append]

/-! ### The preamble -/

/-- A command to another region adds nothing to the preamble. -/
theorem PreambleReflects.frame (h : PreambleReflects sizes history g) (hsame : SamePreamble g g')
    (hc : c.region ≠ .preamble) : PreambleReflects sizes (history ++ [c]) g' := by
  -- only the four commands to the preamble declare, number or need anything there
  have hnothing : declarationsAfter sizes history c = [] ∧ c.isBlock = false ∧ c.table? = none := by
    cases c with
    | declareStruct _ => exact absurd rfl hc
    | declareUniform _ => exact absurd rfl hc
    | declareBinding _ => exact absurd rfl hc
    | declareIndices _ => exact absurd rfl hc
    | _ => exact ⟨rfl, rfl, rfl⟩
  obtain ⟨hdeclarations, hblock, htable⟩ := hnothing
  constructor
  · rw [hsame.sizes, h.sizes_eq]
  · rw [hsame.declarations, h.declarations, contributions_snoc, hdeclarations, List.append_nil]
  · rw [hsame.nextBlock, h.nextBlock, countP_snoc_of_false hblock]
  · intro name
    rw [hsame.tables, h.tables, mem_filterMap_snoc, htable]
    simp

/-- A declaration without a number or a table. -/
theorem PreambleReflects.declare (h : PreambleReflects sizes history g) {d : Declaration}
    (hd : declarationsAfter sizes history c = [d]) (hblock : c.isBlock = false)
    (htable : c.table? = none) : PreambleReflects sizes (history ++ [c]) (g.declare d) := by
  constructor
  · exact h.sizes_eq
  · rw [contributions_snoc, hd, ← h.declarations]
    rfl
  · rw [countP_snoc_of_false hblock]
    exact h.nextBlock
  · intro name
    rw [mem_filterMap_snoc, htable, ← h.tables name]
    simp [Emitter.declare]

/-- A block takes the next number. -/
theorem PreambleReflects.declareBlock (h : PreambleReflects sizes history g) {v : ResourceVariable}
    {b : BufferBlock} (form : bindingForm g.sizes g.nextBlock v = .ok (.block b)) :
    PreambleReflects sizes (history ++ [.declareBinding v])
      { g.declare (.bufferBlock b) with nextBlock := g.nextBlock + 1 } := by
  have hbuffer : v.type.isBuffer = true := isBuffer_of_block form
  have htable : Command.table? (.declareBinding v) = none := if_pos hbuffer
  have hd : declarationsAfter sizes history (.declareBinding v) = [.bufferBlock b] := by
    rw [declarationsAfter, ← h.sizes_eq, ← h.nextBlock, form]
  constructor
  · exact h.sizes_eq
  · rw [contributions_snoc, hd, ← h.declarations]
    rfl
  · rw [countP_snoc_of_true (c := .declareBinding v) hbuffer, ← numbered_snoc, ← h.nextBlock]
  · intro name
    rw [mem_filterMap_snoc, htable, ← h.tables name]
    simp [Emitter.declare]

theorem table?_of_form {id : UInt32} {v : ResourceVariable} {t : ResourceTable}
    (form : bindingForm sizes id v = .ok (.table t)) :
    Command.isBlock (.declareBinding v) = false ∧
      Command.table? (.declareBinding v) = some t.name := by
  obtain ⟨hbuffer, hspelling⟩ := spelling_of_table form
  constructor
  · exact hbuffer
  · rw [Command.table?, hbuffer, hspelling]
    rfl

/-- A table is declared by the first command that needs it. -/
theorem PreambleReflects.declareTable (h : PreambleReflects sizes history g) {v : ResourceVariable}
    {t : ResourceTable} (form : bindingForm g.sizes g.nextBlock v = .ok (.table t))
    (fresh : ¬ g.tables.contains t.name = true) :
    PreambleReflects sizes (history ++ [.declareBinding v])
      { g.declare (.table t) with tables := g.tables.insert t.name } := by
  obtain ⟨hblock, htable⟩ := table?_of_form form
  have hd : declarationsAfter sizes history (.declareBinding v) = [.table t] := by
    rw [declarationsAfter, ← h.sizes_eq, ← h.nextBlock, form]
    exact if_neg fun hmem => fresh ((h.tables t.name).mpr hmem)
  constructor
  · exact h.sizes_eq
  · rw [contributions_snoc, hd, ← h.declarations]
    rfl
  · rw [countP_snoc_of_false hblock]
    exact h.nextBlock
  · intro name
    rw [mem_filterMap_snoc, htable, ← h.tables name, Std.TreeSet.contains_insert, Bool.or_eq_true,
      or_comm]
    simp

/-- A table that was declared before is not declared again. -/
theorem PreambleReflects.shareTable (h : PreambleReflects sizes history g) {v : ResourceVariable}
    {t : ResourceTable} (form : bindingForm g.sizes g.nextBlock v = .ok (.table t))
    (declared : g.tables.contains t.name = true) :
    PreambleReflects sizes (history ++ [.declareBinding v]) g := by
  obtain ⟨hblock, htable⟩ := table?_of_form form
  have hmem : t.name ∈ history.filterMap Command.table? := (h.tables t.name).mp declared
  have hd : declarationsAfter sizes history (.declareBinding v) = [] := by
    rw [declarationsAfter, ← h.sizes_eq, ← h.nextBlock, form]
    exact if_pos hmem
  constructor
  · exact h.sizes_eq
  · rw [contributions_snoc, hd, List.append_nil, h.declarations]
  · rw [countP_snoc_of_false hblock]
    exact h.nextBlock
  · intro name
    rw [mem_filterMap_snoc, htable, h.tables name, Option.some.injEq]
    constructor
    · exact Or.inl
    · rintro (hold | rfl)
      · exact hold
      · exact hmem

/-- Every transition adds to the preamble what its command contributes. -/
theorem PreambleReflects.snoc (h : PreambleReflects sizes history g) (ht : Transition g c g') :
    PreambleReflects sizes (history ++ [c]) g' := by
  by_cases hc : c.region = .preamble
  · cases ht with
    | declareStruct form =>
      exact h.declare (by rw [declarationsAfter, form]; rfl) rfl rfl
    | declareUniform first form =>
      -- the flag that is set belongs to no contribution
      have hd := h.declare (c := .declareUniform _) (by rw [declarationsAfter, form]; rfl) rfl rfl
      exact ⟨hd.sizes_eq, hd.declarations, hd.nextBlock, hd.tables⟩
    | declareBlock form => exact h.declareBlock form
    | declareTable form fresh => exact h.declareTable form fresh
    | shareTable form declared => exact h.shareTable form declared
    | declareIndices small => exact h.declare rfl rfl rfl
    | _ => cases hc
  · exact h.frame (ht.samePreamble hc) hc

/-! ### The headers -/

/-- A command to another region adds nothing to the headers. -/
theorem HeadersReflect.frame (h : HeadersReflect history g) (hsame : SameHeaders g g')
    (hc : c.region ≠ .headers) : HeadersReflect (history ++ [c]) g' := by
  -- only the four interface commands declare anything in a header
  have hnothing : (∀ s, interfaceAfter s history c = []) ∧ c.isVarying = false := by
    cases c with
    | declareVertexInput _ => exact absurd rfl hc
    | declareFragmentOutput _ => exact absurd rfl hc
    | declareAttachment _ => exact absurd rfl hc
    | declareVarying _ _ _ => exact absurd rfl hc
    | _ => exact ⟨fun _ => rfl, rfl⟩
  obtain ⟨hinterface, hvarying⟩ := hnothing
  constructor
  · intro s
    rw [hsame.header, h.header, contributions_snoc, hinterface, List.append_nil]
  · rw [hsame.nextLocation, h.nextLocation, countP_snoc_of_false hvarying]

/-- A declaration in one header, without a location of its own. -/
theorem HeadersReflect.declareIn (h : HeadersReflect history g) {s : Stage}
    {d : InterfaceDeclaration}
    (hd : ∀ t, interfaceAfter t history c = if s = t then [d] else [])
    (hvarying : c.isVarying = false) : HeadersReflect (history ++ [c]) (g.declareIn s d) := by
  constructor
  · intro t
    rw [header_declareIn, contributions_snoc, hd, h.header]
  · rw [countP_snoc_of_false hvarying]
    exact h.nextLocation

/-- A value passed between stages is declared in both headers, at the next location. -/
theorem HeadersReflect.declareVarying (h : HeadersReflect history g) {v : Variable}
    {producer consumer : Stage} {token : String} (form : varyingToken? v = some token) :
    HeadersReflect (history ++ [.declareVarying v producer consumer])
      (g.withVarying v producer consumer token) := by
  constructor
  · intro t
    rw [header_withVarying, contributions_snoc, h.header, interfaceAfter, form, ← h.nextLocation]
    simp [List.append_assoc]
  · rw [countP_snoc_of_true (c := .declareVarying v producer consumer) rfl, ← numbered_snoc,
      ← h.nextLocation]
    rfl

/-- Every transition adds to the headers what its command contributes. -/
theorem HeadersReflect.snoc (h : HeadersReflect history g) (ht : Transition g c g') :
    HeadersReflect (history ++ [c]) g' := by
  by_cases hc : c.region = .headers
  · cases ht with
    | declareVertexInput form =>
      exact h.declareIn (fun t => by rw [interfaceAfter, form]; rfl) rfl
    | declareFragmentOutput form =>
      exact h.declareIn (fun t => by rw [interfaceAfter, form]; rfl) rfl
    | declareAttachment form =>
      exact h.declareIn (fun t => by rw [interfaceAfter, form]; rfl) rfl
    | declareVarying order form => exact h.declareVarying form
    | _ => cases hc
  · exact h.frame (ht.sameHeaders hc) hc

/-! ### The bodies -/

/-- A command to another region neither changes stages nor performs a statement. -/
theorem BodiesReflect.frame (h : BodiesReflect history g) (hsame : SameBodies g g')
    (hc : c.region ≠ .bodies) : BodiesReflect (history ++ [c]) g' := by
  have hnothing : (∀ s, c.begins s = false) ∧ c.ends = false ∧ c.statement? = none := by
    cases c with
    | beginStage _ => exact absurd rfl hc
    | endStage => exact absurd rfl hc
    | perform _ => exact absurd rfl hc
    | _ => exact ⟨fun _ => rfl, rfl, rfl⟩
  obtain ⟨hbegins, hends, hstatement⟩ := hnothing
  have hbegun (s : Stage) : hasBegun s (history ++ [c]) = hasBegun s history := by
    rw [hasBegun_snoc, hbegins, Bool.or_false]
  have hended (s : Stage) : hasEnded s (history ++ [c]) = hasEnded s history := by
    rw [hasEnded_snoc, hbegins, hends, Bool.or_false]
    rfl
  have hlast (s : Stage) : lastActivation s (history ++ [c]) = lastActivation s history := by
    rw [lastActivation_snoc, hbegins, hstatement]
    simp
  constructor
  · intro s
    rw [hsame.body, hbegun, hended, hlast]
    exact h.body s
  · intro s
    rw [hsame.active, hbegun, hended]
    exact h.active s
  · intro s hs
    rw [hsame.depth, hlast]
    exact h.depth s (hsame.active ▸ hs)
  · intro s hs index
    rw [hsame.unpacked, hlast]
    exact h.unpacked s (hsame.active ▸ hs) index

/-- A begun stage starts an activation without statements. -/
theorem BodiesReflect.beginStage (h : BodiesReflect history g) (s : Stage)
    (idle : g.active = none) : BodiesReflect (history ++ [.beginStage s]) (g.opened s) := by
  have hbegins (t : Stage) : (Command.beginStage s).begins t = decide (s = t) := rfl
  constructor
  · intro t
    rw [hasBegun_snoc, hasEnded_snoc, lastActivation_snoc, hbegins]
    simp only [opened, body_setBody]
    by_cases hst : s = t
    · simp [hst, Body.fresh, contributions, contributionsAfter]
    · simpa [hst, Command.ends, Command.statement?] using h.body t
  · intro t
    rw [hasBegun_snoc, hasEnded_snoc, hbegins]
    by_cases hst : s = t
    · simp [hst, opened]
    · -- no other stage was active, so none of them is left open
      have hother : ¬ (hasBegun t history = true ∧ hasEnded t history = false) := by
        rw [← h.active t, idle]
        intro ht
        cases ht
      simpa [hst, opened, Command.ends] using hother
  · intro t ht
    cases ht
    rw [lastActivation_snoc, hbegins]
    simp [opened, Statement.depthAfter]
  · intro t ht index
    cases ht
    rw [lastActivation_snoc, hbegins]
    simp [opened]

/-- The open body holds the lines of the active stage's last activation. -/
theorem BodiesReflect.openBody (h : BodiesReflect history g) {s : Stage} {b : Body}
    (hb : g.openBody? = some (s, b)) :
    hasBegun s history = true ∧ hasEnded s history = false ∧
      b = ⟨contributions Statement.linesAfter (lastActivation s history), false⟩ := by
  obtain ⟨hs, hbody⟩ := openBody?_eq_some_iff.mp hb
  obtain ⟨hbegun, hended⟩ := (h.active s).mp hs
  have hlines := h.body s
  rw [hbody, hbegun, hended, if_pos rfl] at hlines
  exact ⟨hbegun, hended, Option.some.inj hlines⟩

/-- While a stage is active, the last activation of every other stage is over. -/
theorem BodiesReflect.hasEnded_of_ne (h : BodiesReflect history g) {s t : Stage}
    (hs : g.active = some s) (hst : s ≠ t) (hbegun : hasBegun t history = true) :
    hasEnded t history = true := by
  by_contra hopen
  have ht : g.active = some t := (h.active t).mpr ⟨hbegun, by simpa using hopen⟩
  exact hst (Option.some.inj (hs.symm.trans ht))

/-- The end of a stage closes its last activation. -/
theorem BodiesReflect.endStage (h : BodiesReflect history g) {s : Stage} {b : Body}
    (hb : g.openBody? = some (s, b)) : BodiesReflect (history ++ [.endStage]) (g.ended s b) := by
  obtain ⟨hbegun, hended, rfl⟩ := h.openBody hb
  obtain ⟨hs, -⟩ := openBody?_eq_some_iff.mp hb
  have hbegins (t : Stage) : Command.endStage.begins t = false := rfl
  have hlast (t : Stage) :
      lastActivation t (history ++ [.endStage]) = lastActivation t history := by
    rw [lastActivation_snoc, hbegins]
    simp [Command.ends]
  constructor
  · intro t
    rw [hlast, hasBegun_snoc, hasEnded_snoc, hbegins]
    simp only [ended, body_setBody, Bool.or_false, Bool.not_false, Bool.true_and]
    by_cases hst : s = t
    · subst hst
      simp [hbegun, Body.close, Command.ends]
    · rw [if_neg hst, h.body t]
      cases hbegun' : hasBegun t history with
      | false => rfl
      | true => simp [h.hasEnded_of_ne hs hst hbegun']
  · intro t
    rw [hasEnded_snoc, hbegins]
    simp [ended, Command.ends]
  · intro t ht
    cases ht
  · intro t ht
    cases ht

/-- A statement adds its lines to the last activation of the active stage. -/
theorem BodiesReflect.perform (h : BodiesReflect history g) {s : Stage} {b : Body}
    (hb : g.openBody? = some (s, b)) {statement : Statement} (hactive : g'.active = g.active)
    (hbody : ∀ t, (g'.outputs.get t).body =
      if s = t then
        some { b with
          lines := b.lines ++ Statement.linesAfter (lastActivation s history) statement }
      else (g.outputs.get t).body)
    (hdepth : g'.depth = Statement.depthAfter (lastActivation s history ++ [statement]))
    (hunpacked : ∀ index, g'.unpacked.contains index = true ↔
      g.unpacked.contains index = true ∨ statement.unpackedIndex? = some index) :
    BodiesReflect (history ++ [.perform statement]) g' := by
  obtain ⟨hbegun, hended, rfl⟩ := h.openBody hb
  obtain ⟨hs, -⟩ := openBody?_eq_some_iff.mp hb
  have hbegins (t : Stage) : (Command.perform statement).begins t = false := rfl
  have hbegun' (t : Stage) :
      hasBegun t (history ++ [.perform statement]) = hasBegun t history := by
    rw [hasBegun_snoc, hbegins, Bool.or_false]
  have hended' (t : Stage) :
      hasEnded t (history ++ [.perform statement]) = hasEnded t history := by
    rw [hasEnded_snoc, hbegins]
    simp [Command.ends]
  have hlast : lastActivation s (history ++ [.perform statement]) =
      lastActivation s history ++ [statement] := by
    rw [lastActivation_snoc, hbegins, hended]
    simp [Command.ends, Command.statement?]
  constructor
  · intro t
    rw [hbody, hbegun', hended']
    by_cases hst : s = t
    · subst hst
      rw [if_pos rfl, hbegun, if_pos rfl, hlast, contributions_snoc, hended]
    · rw [if_neg hst, h.body t]
      cases hbegun'' : hasBegun t history with
      | false => rfl
      | true =>
        have hover := h.hasEnded_of_ne hs hst hbegun''
        rw [lastActivation_snoc, hbegins, hover]
        simp
  · intro t
    rw [hactive, hbegun', hended']
    exact h.active t
  · intro t ht
    have hst : s = t := Option.some.inj (hs.symm.trans (hactive ▸ ht))
    subst hst
    rw [hlast]
    exact hdepth
  · intro t ht index
    have hst : s = t := Option.some.inj (hs.symm.trans (hactive ▸ ht))
    subst hst
    rw [hlast, hunpacked, h.unpacked s hs, mem_filterMap_snoc]

/-- An accepted statement adds to the last activation of the active stage what it contributes. -/
theorem BodiesReflect.statement (h : BodiesReflect history g) (hg : g.WellFormed)
    {statement : Statement} (ht : Transition g (.perform statement) g') :
    BodiesReflect (history ++ [.perform statement]) g' := by
  cases ht with
  | @writeStatement _ line s b plain form body =>
    have hs := (openBody?_eq_some_iff.mp body).1
    have hshape : statement.opens = false ∧ statement.closes = false ∧
        statement.unpackedIndex? = none := by
      cases statement <;> first | exact ⟨rfl, rfl, rfl⟩ | cases plain
    refine h.perform body rfl (fun t => ?_) ?_ fun index => ?_
    · rw [body_setBody, Statement.linesAfter_plain plain form, ← h.depth s hs]
      rfl
    · rw [Statement.depthAfter_plain hshape.1 hshape.2.1]
      exact h.depth s hs
    · rw [hshape.2.2]
      simp [setBody]
  | @unpackFirst index s b small fresh body =>
    have hs := (openBody?_eq_some_iff.mp body).1
    -- the mask holds exactly the sub-indices that this activation has read
    have hnew : index ∉ (lastActivation s history).filterMap Statement.unpackedIndex? :=
      fun hmem => fresh ((h.unpacked s hs index).mpr hmem)
    refine h.perform body rfl (fun t => ?_) ?_ fun j => ?_
    · rw [Statement.linesAfter_unpack small, if_neg hnew, ← h.depth s hs]
      exact body_setBody g s t _
    · rw [Statement.depthAfter_plain rfl rfl]
      exact h.depth s hs
    · rw [IndexMask.contains_insert_iff small, Statement.unpackedIndex?, Option.some.injEq,
        or_comm]
  | @unpackAgain index s b small known body =>
    -- nothing changes, and a sub-index that was read before contributes no line
    have hs := (openBody?_eq_some_iff.mp body).1
    have hold : index ∈ (lastActivation s history).filterMap Statement.unpackedIndex? :=
      (h.unpacked s hs index).mp known
    refine h.perform body rfl (fun t => ?_) ?_ fun j => ?_
    · rw [Statement.linesAfter_unpack small, if_pos hold, List.append_nil]
      split
      · next hst => rw [← hst, (openBody?_eq_some_iff.mp body).2]
      · rfl
    · rw [Statement.depthAfter_plain rfl rfl]
      exact h.depth s hs
    · rw [Statement.unpackedIndex?, Option.some.injEq]
      exact ⟨Or.inl, fun hj => hj.elim id fun hij => hij ▸ known⟩
  | @enterBlock o s b body =>
    have hs := (openBody?_eq_some_iff.mp body).1
    refine h.perform body rfl (fun t => ?_) ?_ fun j => ?_
    · rw [Statement.linesAfter_openBlock, ← h.depth s hs]
      exact body_setBody g s t _
    · rw [Statement.depthAfter_openBlock o (h.depth s hs ▸ hg.depth hs), ← h.depth s hs]
    · simp [Statement.unpackedIndex?, setBody]
  | @leaveBlock s b body nested =>
    have hs := (openBody?_eq_some_iff.mp body).1
    refine h.perform body rfl (fun t => ?_) ?_ fun j => ?_
    · rw [Statement.linesAfter_closeBlock, ← h.depth s hs]
      exact body_setBody g s t _
    · rw [Statement.depthAfter_closeBlock, ← h.depth s hs]
    · simp [Statement.unpackedIndex?, setBody]

/-- Every transition adds to the bodies what its command contributes. -/
theorem BodiesReflect.snoc (h : BodiesReflect history g) (hg : g.WellFormed)
    (ht : Transition g c g') : BodiesReflect (history ++ [c]) g' := by
  by_cases hc : c.region = .bodies
  · cases c with
    | beginStage s =>
      cases ht with
      | beginStage idle => exact h.beginStage s idle
    | endStage =>
      cases ht with
      | endStage body flat => exact h.endStage body
    | perform statement => exact h.statement hg ht
    | _ => cases hc
  · exact h.frame (ht.sameBodies hc) hc

/-! ## Runs -/

/-- A chain of transitions leaves an emitter that reflects its commands. -/
theorem reflects_of_chain (h : Chain Transition (new sizes) history g) :
    Reflects sizes history g := by
  induction h with
  | refl => exact reflects_new sizes
  | snoc hchain hT ih =>
    -- a closing brace and an opener need the positive depth that every reachable state has
    have hg := wellFormed_of_chain hchain (wellFormed_new sizes)
    exact ⟨ih.preamble.snoc hT, ih.headers.snoc hT, ih.bodies.snoc hg hT⟩

/-- A run leaves an emitter that reflects its accepted commands. -/
theorem reflects_run (sizes : TableSizes) (commands : List Command) :
    Reflects sizes (Action.accepted step commands (new sizes)) (run commands (new sizes)) :=
  reflects_of_chain (chain_run (wellFormed_new sizes) commands)

/-- The body of the active stage is not closed. -/
theorem Reachable.closed_eq_false (hg : g.Reachable) {s : Stage} {b : Body}
    (hb : g.openBody? = some (s, b)) : b.closed = false := by
  obtain ⟨sizes, commands, rfl⟩ := hg
  obtain ⟨-, -, rfl⟩ := (reflects_run sizes commands).bodies.openBody hb
  rfl

/-- A stage has a body exactly if an accepted command begins it. -/
theorem isActivated_run (sizes : TableSizes) (commands : List Command) (s : Stage) :
    (run commands (new sizes)).isActivated s = true ↔
      .beginStage s ∈ Action.accepted step commands (new sizes) := by
  rw [isActivated, (reflects_run sizes commands).bodies.body s, ← hasBegun_iff]
  cases hasBegun s (Action.accepted step commands (new sizes)) <;> simp

end Emitter

end GlslEmit
