import Stagecraft.Proofs.Code.Landings
import Stagecraft.Proofs.Project.Linking

/-!
Every routine that is written can be read to its end, which is a return; its jumps lead to its own
instructions; and the numbers in it are known in its module.
-/

namespace Stagecraft

namespace Instruction

def token? : Instruction → Option UInt16
  | .load (.text token) | .loadGlobal token | .storeGlobal token | .present token
  | .isPressed token | .trap token => some token
  | _ => none

def Fits (imports parameters : Nat) : Instruction → Prop
  | .loadArgument i | .storeArgument i => i.toNat < parameters
  | .callFar i _ => i.toNat < imports
  | .dispatch id count => ∃ signature, Signature.ofId id = some signature ∧
      signature.accepts count.toNat
  | _ => True

lemma fits_of_not_isMention {imports parameters : Nat} {i : Instruction} (h : ¬ i.isMention) :
    i.Fits imports parameters := by
  cases i with
  | loadArgument _ | storeArgument _ | callFar _ _ | dispatch _ _ => exact absurd rfl h
  | _ => trivial

lemma isMention_of_token? {i : Instruction} {token : UInt16} (h : i.token? = some token) :
    i.isMention := by
  cases i with
  | load v =>
    cases v with
    | text _ => rfl
    | _ => cases h
  | loadGlobal _ | storeGlobal _ | present _ | isPressed _ | trap _ => rfl
  | _ => cases h

end Instruction

def Bindings.global? (bindings : Bindings) (node : Node) (name : String) : Option String :=
  match bindings.references[node.id]? with
  | some .global => some name
  | _ => none

def Mention.text? (bindings : Bindings) : Mention → Option String
  | .literal s | .label s | .speech s => some s
  | .read node name => bindings.global? node name
  | .write target => bindings.global? target.node target.name
  | .call _ _ => none

namespace Emit

variable {c : Context} {b b' : Builder} {P : Nat → Prop} {m : Mention} {i : Instruction}

lemma Loads.text {node : Node} {name : String} (hb : b'.Opens b) (h : Loads c b' node name i) :
    Option.Rel (fun s token => b.HasText token s) ((Mention.read node name).text? c.bindings)
      i.token? := by
  unfold Loads at h
  rw [Mention.text?, Bindings.global?]
  split at h
  · next hr =>
    rw [h, hr]
    exact .none
  · next hr =>
    obtain ⟨token, ht, rfl⟩ := h
    rw [hr]
    exact .some (Builder.getElem?_of_prefix hb.texts ht)
  · next hr =>
    rw [h, hr]
    exact .none
  · next hr =>
    rw [h, hr]
    exact .none
  · cases h

lemma Stores.text {target : Target} (hb : b'.Opens b) (h : Stores c b' target i) :
    Option.Rel (fun s token => b.HasText token s) ((Mention.write target).text? c.bindings)
      i.token? := by
  unfold Stores at h
  rw [Mention.text?, Bindings.global?]
  split at h
  · next hr =>
    rw [h, hr]
    exact .none
  · next hr =>
    obtain ⟨token, ht, rfl⟩ := h
    rw [hr]
    exact .some (Builder.getElem?_of_prefix hb.texts ht)
  · cases h

lemma Means.text (hb : b'.Opens b) (h : Means c b' P m i) :
    Option.Rel (fun s token => b.HasText token s) (m.text? c.bindings) i.token? := by
  cases m with
  | literal s | label s | speech s =>
    obtain ⟨token, ht, rfl⟩ := h
    exact .some (Builder.getElem?_of_prefix hb.texts ht)
  | read node name => exact h.2.text hb
  | write target => exact h.2.text hb
  | call node count =>
    obtain ⟨id, signature, -, -, -, -, rfl⟩ | ⟨symbol, routine, -, -, h⟩ := h
    · exact .none
    · obtain ⟨-, ⟨-, rfl⟩ | ⟨k, -, -, rfl⟩⟩ := h <;> exact .none

lemma Means.fits {parameters : Nat} (hb : b'.Opens b)
    (hp : ∀ id symbol, P id → c.bindings.references[id]? = some (.parameter symbol) →
      symbol.index.toNat < parameters) (h : Means c b' P m i) :
    i.Fits b.imports.size parameters := by
  cases m with
  | literal s | label s | speech s =>
    obtain ⟨token, -, rfl⟩ := h
    trivial
  | read node name =>
    obtain ⟨hn, h⟩ := h
    unfold Loads at h
    split at h
    · next hr =>
      rw [h]
      exact hp _ _ hn hr
    · obtain ⟨token, -, rfl⟩ := h
      trivial
    · rw [h]
      trivial
    · rw [h]
      trivial
    · cases h
  | write target =>
    obtain ⟨hn, h⟩ := h
    unfold Stores at h
    split at h
    · next hr =>
      rw [h]
      exact hp _ _ hn hr
    · obtain ⟨token, -, rfl⟩ := h
      trivial
    · cases h
  | call node count =>
    obtain ⟨id, signature, -, hsig, haccepts, hcount, rfl⟩ | ⟨symbol, routine, -, -, h⟩ := h
    · refine ⟨signature, hsig, ?_⟩
      rwa [UInt8.toNat_ofNat_of_lt' hcount]
    · obtain ⟨-, ⟨-, rfl⟩ | ⟨k, -, hk, rfl⟩⟩ := h
      · trivial
      · exact (Array.getElem?_eq_some_iff.mp (Builder.getElem?_of_prefix hb.imports hk)).1

lemma MentionsMatch.texts {ms : List Mention} {code : Code} (hb : b'.Opens b)
    (h : MentionsMatch c b' P ms code.mentions) :
    List.Forall₂ (fun s token => b.HasText token s) (ms.filterMap (Mention.text? c.bindings))
      (code.located.filterMap (·.2.token?)) := by
  have htokens : code.located.filterMap (·.2.token?) =
      code.mentions.filterMap Instruction.token? := by
    rw [← Function.comp_def Instruction.token?, ← List.filterMap_map, Code.located,
      Instruction.map_snd_located, Code.mentions, List.filterMap_filter]
    congr 1
    funext i
    split
    · rfl
    · next hi =>
      rw [Option.eq_none_iff_forall_ne_some]
      exact fun token h => hi (Instruction.isMention_of_token? h)
  rw [htokens]
  exact List.rel_filterMap (fun m i h => Means.text hb h) h

lemma MentionsMatch.fits {ms : List Mention} {code : Code} {parameters : Nat} (hb : b'.Opens b)
    (hp : ∀ id symbol, P id → c.bindings.references[id]? = some (.parameter symbol) →
      symbol.index.toNat < parameters) (h : MentionsMatch c b' P ms code.mentions)
    (x : Nat × Instruction) (hx : x ∈ code.located) : x.2.Fits b.imports.size parameters := by
  have hboth : List.Forall₂ (fun i m => i.Fits b.imports.size parameters ∧ Means c b' P m i)
      code.mentions ms :=
    .flip (h.imp fun m i hm => ⟨Means.fits hb hp hm, hm⟩)
  have hfits := ((List.forall₂_and_left _ _).mp hboth).1
  by_cases hi : x.2.isMention
  · refine hfits _ (List.mem_filter.mpr ⟨?_, hi⟩)
    have hin := List.mem_map_of_mem (f := (·.2)) hx
    rwa [Code.located, Instruction.map_snd_located] at hin
  · exact Instruction.fits_of_not_isMention hi

end Emit

/-- What the machine relies on in a routine of a module that is built with `b`. The instructions of
its code are `found`, and the numbers of texts in them are those of `texts`. -/
structure Definition.Contract (b : Builder) (texts : List String)
    (found : List (Nat × Instruction)) (d : Definition) : Prop where
  decodes : Instruction.decodeAll d.code = .ok found
  returns : (found.map (·.2)).getLast? = some .ret
  jumps : ∀ x ∈ found, ∀ offset, x.2.offset? = some offset →
    ∃ y ∈ found, (x.1 + x.2.size + offset.toInt : Int) = y.1 ∧ y.1 < d.code.size
  texts : List.Forall₂ (fun s token => b.HasText token s) texts (found.filterMap (·.2.token?))
  fits : ∀ x ∈ found, x.2.Fits b.imports.size d.parameters.length

namespace Definition

variable {b b' : Builder} {d : Definition}

lemma contract_of_code {c : Emit.Context} {member : Member} {code : Code} (hb : b'.Opens b)
    (hcode : Emit.MemberCode c b' member code) (hd : d.code = code.encode)
    (hp : ∀ use ∈ member.uses, ∀ symbol,
      c.bindings.references[use.node.id]? = some (.parameter symbol) →
        symbol.index.toNat < d.parameters.length) :
    d.Contract b (member.mentions.filterMap (Mention.text? c.bindings)) code.located := by
  have hmentions := hcode.mentions (P := fun id => ∃ use ∈ member.uses, use.node.id = id)
    fun use huse => ⟨use, huse, rfl⟩
  have hsize : d.code.size = ((code.toList.map Step.instruction).map Instruction.size).sum := by
    rw [hd, Code.encode, Instruction.size_encodeAll]
  refine ⟨?_, ?_, fun x hx offset ho => ?_, hmentions.texts hb,
    hmentions.fits hb fun id symbol hused hs => ?_⟩
  · rw [hd]
    exact Instruction.decodeAll_encodeAll _
  · obtain ⟨inner, -, rfl⟩ := hcode
    rw [Code.located, Instruction.map_snd_located]
    simp [Step.instruction]
  · obtain ⟨_, htarget, y, hy, rfl⟩ := hcode.lands x hx offset ho
    have hle := Instruction.le_of_located hy
    have hpos := y.2.size_pos
    exact ⟨y, hy, htarget, by omega⟩
  · obtain ⟨use, huse, rfl⟩ := hused
    exact hp use huse symbol hs

lemma contract_of_trap {token : UInt16} {s : String} (ht : b.HasText token s)
    (hd : d.code = Instruction.encodeAll [.trap token, .ret]) :
    d.Contract b [s] [(0, .trap token), (3, .ret)] := by
  refine ⟨?_, rfl, ?_, .cons ht .nil, ?_⟩
  · rw [hd]
    exact Instruction.decodeAll_encodeAll _
  · simp [Instruction.offset?]
  · simp [Instruction.Fits]

end Definition

namespace CompiledProject

variable {files : Files} {sources : Sources} {path : String} {source : Source}
  {compiled : Compiled} {c : Emit.Context} {b : Builder}

lemma Compiles.makes (hc : Compiles files sources path source c b compiled) {r : Nat}
    {d : Definition} (hd : b.routines[r]? = some d) :
    ∃ member ∈ source.script.members, d.name = member.nameAt r ∧ d.kind = member.kind ∧
      d.Makes c b member := by
  have hlt : r < c.table.members.entries.size := by
    rw [← hc.assembled.size]
    exact (Array.getElem?_eq_some_iff.mp hd).1
  have hentry := Array.getElem?_eq_getElem hlt
  obtain ⟨member, hmember, hdeclares, d', hd', hmakes⟩ := hc.assembled.routines r _ _ hentry
  cases Option.some.inj (hd.symm.trans hd')
  obtain ⟨hname, hkind⟩ := hc.label hentry hd
  obtain ⟨member', hmember', hlabels⟩ := hc.labels r _ _ hentry
  cases Member.eq_of_node hc.assembled.apart hmember hmember'
    (hdeclares.node.symm.trans hlabels.node)
  exact ⟨member, hmember, hname.trans hlabels.named, hkind.trans hlabels.kind, hmakes⟩

lemma Compiles.parameter_lt (hc : Compiles files sources path source c b compiled)
    {member : Member} (hm : member ∈ source.script.members) {use : Use} (huse : use ∈ member.uses)
    {symbol : ParameterSymbol}
    (hs : c.bindings.references[use.node.id]? = some (.parameter symbol)) :
    symbol.index.toNat < member.parameters.length := by
  have hdescribes (path : String) (t : SymbolTable)
      (htable : (SymbolTables.ofSources sources).1[path]? = some t) :
      ∃ members, t.Describes path members := by
    obtain ⟨source, -, rfl⟩ := (collects_ofSources sources).of_toList htable
    exact ⟨_, SymbolTable.describes_ofScript path source.includes source.script⟩
  have ha := hc.assembled
  exact ha.bindings.parameter_lt hdescribes ha.apart ha.table ha.describes hm huse hs

/-- Whenever the module of a file can be written, its routines keep the contract of the machine with
the builder of the module. A routine is the one of a member, with the texts of its mentions, or, if
the code of the member cannot be written, one that stops with the message of the reason. -/
theorem code_contract {ds : Array FileDiagnostic} {table : SymbolTable} {bound : Bindings}
    {ds' : Array Diagnostic} (hread : Sources.read files = .ok (sources, ds))
    (hsource : sources[path]? = some source)
    (htable : (SymbolTables.ofSources sources).1[path]? = some table)
    (hbound : (bindAll sources (SymbolTables.ofSources sources).1).1[path]? = some bound)
    (h : Compiled.ofScript source.script table bound = (.ok compiled, ds')) :
    ∃ b, assemble? files path = some b ∧ b.write = .ok compiled.bytes ∧
      compiled.routines = b.routines.toList ∧
      ∀ (r : Nat) d, compiled.routines[r]? = some d →
        ∃ member ∈ source.script.members, d.name = member.nameAt r ∧ d.kind = member.kind ∧
          d.parameters = member.parameterNames ∧
          ∃ texts found, d.Contract b texts found ∧
            (texts = member.mentions.filterMap (Mention.text? bound) ∨
              ∃ diagnostic, member.Traps ⟨table, bound⟩ diagnostic ∧
                texts = [diagnostic.trapMessage table.path]) := by
  obtain ⟨b, hc⟩ := compiles_of_ofScript hread hsource htable hbound h
  refine ⟨b, hc.builder, hc.written, hc.routines, fun r d hd => ?_⟩
  rw [hc.routines, Array.getElem?_toList] at hd
  obtain ⟨member, hm, hname, hkind, hmakes⟩ := hc.makes hd
  refine ⟨member, hm, hname, hkind, hmakes.parameters, ?_⟩
  obtain ⟨b', code, hopens, hcode, hdcode⟩ | ⟨token, diagnostic, ⟨htraps, ht⟩, hdcode⟩ :=
    hmakes.code
  · refine ⟨_, _, Definition.contract_of_code hopens hcode hdcode fun use huse symbol hs => ?_,
      .inl rfl⟩
    rw [hmakes.parameters, Member.length_parameterNames]
    exact hc.parameter_lt hm huse hs
  · exact ⟨_, _, Definition.contract_of_trap ht hdcode, .inr ⟨diagnostic, htraps, rfl⟩⟩

theorem code_contract_sample :
    ∃ b d texts found, assemble? Launch.sample.files "main.nss" = some b ∧
      b.routines[1]? = some d ∧ d.name = "main" ∧ d.Contract b texts found := by
  obtain ⟨bytes, hwrite⟩ : ∃ bytes, Launch.Sample.builder.write = .ok bytes := ⟨_, by cbv⟩
  have hroutines := Launch.Sample.addRoutines_table
  rw [Compiled.membersOf] at hroutines
  have hscript : Compiled.ofScript Launch.Sample.source.script Launch.Sample.table
      Launch.Sample.bindings = (.ok ⟨"main.nss", Launch.Sample.builder.routines.toList, bytes⟩,
        #[]) := by
    rw [Compiled.ofScript, hroutines]
    simp [hwrite, Except.map, Launch.Sample.table]
  have hsource : Launch.Sample.sources["main.nss"]? = some Launch.Sample.source := by
    simp [Launch.Sample.sources]
  obtain ⟨b, hb, -, hroutines, hall⟩ := code_contract Launch.Sample.read_files hsource
    (by simp [Launch.Sample.tables_sources])
    (by simp [Launch.Sample.tables_sources, Launch.Sample.bindAll_sources]) hscript
  obtain ⟨member, hm, hname, hkind, -, texts, found, hcontract, -⟩ := hall 1 _ rfl
  refine ⟨b, _, texts, found, hb, ?_, rfl, hcontract⟩
  rw [← Array.getElem?_toList, ← hroutines]
  rfl

end CompiledProject

end Stagecraft
