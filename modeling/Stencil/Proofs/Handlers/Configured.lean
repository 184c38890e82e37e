import Stencil.Proofs.Handlers.Chains
import Stencil.Proofs.Handlers.Rounds
import Stencil.Renderer

/-!
# Configured aliases are resolved as chains

What is known of a registry at any time while the aliases of some settings are added to it is stated
once (`Settings.Halfway`); a round keeps it, and it tells what an end of the rounds means. Main
statement: `configured_aliases_are_chains`, on which settings a renderer can be made of, what their
aliases then stand for, and how it fails otherwise.
-/

namespace Stencil

namespace Registry

variable {r r' : Registry} {kind name other : String}

/-- An alias that is added takes nothing away. -/
theorem Consistent.contains_of_addAlias (hr : r.Consistent) (hadd : r.addAlias name kind = .ok r')
    (h : r.contains other = true) : r'.contains other = true := by
  have hr' : r'.Consistent := hr.apply (c := .addAlias name kind) hadd
  rw [hr.contains_iff] at h
  rw [hr'.contains_iff]
  obtain ⟨-, h', -, rfl⟩ := addAlias_eq_ok.1 hadd
  exact (r.perm_addAlias name h'.kind).mem_iff.2 (List.mem_cons_of_mem _ h)

end Registry

namespace Settings

/-- An alias that is named like a built-in kind and stands for a kind that leads to one. -/
def Clashes (s : Settings) (name : String) : Prop :=
  name ∈ Registry.builtinKinds ∧ ∃ kind last, s.target? name = some kind ∧ s.Leads kind last

/-- An alias for a kind that leads nowhere. -/
def Strays (s : Settings) (name kind : String) : Prop :=
  s.target? name = some kind ∧ ∀ last, ¬ s.Leads kind last

/-- No alias is named like a built-in kind, and each leads to one. -/
def Sound (s : Settings) : Prop :=
  ∀ name kind, s.target? name = some kind →
    name ∉ Registry.builtinKinds ∧ ∃ last, s.Leads kind last

/-- The aliases of some settings on their way into a registry. -/
structure Halfway (s : Settings) (r : Registry) (waiting : List (String × String)) : Prop where
  consistent : r.Consistent
  handlers : r.handlers = Registry.withDefaults.handlers
  /-- No two of the aliases that wait have the same name. -/
  distinct : (waiting.map (·.1)).Nodup
  /-- What waits is an alias that has not been added. -/
  waits : ∀ p ∈ waiting, s.target? p.1 = some p.2 ∧ p.1 ∉ r.aliased
  /-- What has been added is an alias with the end of its chain. -/
  follows : ∀ p ∈ r.aliases, ∃ kind, s.target? p.1 = some kind ∧ s.Leads kind p.2
  /-- No alias is lost. -/
  all : ∀ name kind, s.target? name = some kind → (name, kind) ∈ waiting ∨ name ∈ r.aliased

section Halfway

variable {s : Settings} {r : Registry} {waiting ready later : List (String × String)}
  {name kind last : String}

/-- At the beginning all aliases wait. -/
theorem halfway_start (s : Settings) : s.Halfway Registry.withDefaults (sortByName s.aliases) := by
  have hnodup := (inNameOrder_sortByName s.aliases).nodup
  refine ⟨Registry.consistent_withDefaults, rfl, hnodup, ?_, ?_, ?_⟩
  · intro p hp
    refine ⟨?_, List.not_mem_nil⟩
    rw [target?, ← lookup_sortByName, ← mem_iff_lookup_eq_some hnodup]
    exact hp
  · intro p hp
    cases hp
  · intro name kind htarget
    rw [target?, ← lookup_sortByName, ← mem_iff_lookup_eq_some hnodup] at htarget
    exact .inl htarget

/-- The order in which the aliases wait does not matter. -/
theorem Halfway.perm (h : s.Halfway r waiting) (hperm : later.Perm waiting) : s.Halfway r later where
  consistent := h.consistent
  handlers := h.handlers
  distinct := (hperm.map _).nodup_iff.2 h.distinct
  waits p hp := h.waits p (hperm.mem_iff.1 hp)
  follows := h.follows
  all name kind htarget := (h.all name kind htarget).imp_left hperm.mem_iff.2

/-- Only the built-in kinds have handlers of their own. -/
theorem Halfway.handled (h : s.Halfway r waiting) : r.handled = Registry.builtinKinds := by
  rw [Registry.handled, h.handlers]
  rfl

/-- No built-in kind is an alias. -/
theorem Halfway.not_mem_builtinKinds (h : s.Halfway r waiting) (hname : name ∈ r.aliased) :
    name ∉ Registry.builtinKinds := by
  intro hbuiltin
  rw [← h.handled] at hbuiltin
  exact (List.nodup_append.1 h.consistent.distinct).2.2 name hbuiltin name hname rfl

/-- What has been added stands for a kind that leads to a built-in one. -/
theorem Halfway.exists_leads (h : s.Halfway r waiting) (hname : name ∈ r.aliased) :
    ∃ kind last, s.target? name = some kind ∧ s.Leads kind last := by
  obtain ⟨p, hp, rfl⟩ := List.mem_map.1 hname
  obtain ⟨kind, htarget, hleads⟩ := h.follows p hp
  exact ⟨kind, p.2, htarget, hleads⟩

/-- What a kind is resolved to has the kind that its chain leads to. -/
theorem Halfway.leads_kind (h : s.Halfway r waiting) {x : Registered} (hx : r.resolve kind = .ok x) :
    s.Leads kind x.kind := by
  have hmem : x.kind ∈ Registry.builtinKinds := h.handled ▸ (h.consistent.lookup_kind hx).1
  have hkind := h.consistent.kind_eq hx
  cases halias : r.aliases.lookup kind with
  | none =>
    rw [halias, Option.getD_none] at hkind
    rw [hkind] at hmem ⊢
    exact leads_self hmem
  | some last =>
    obtain ⟨after, htarget, hleads⟩ := h.follows _ (mem_of_lookup_eq_some halias)
    have hname : kind ∈ r.aliased := isSome_lookup_iff.1 (by rw [halias]; rfl)
    rw [halias, Option.getD_some] at hkind
    rw [hkind]
    exact Next.leads ⟨h.not_mem_builtinKinds hname, htarget⟩ hleads

/-- An alias that is added no longer waits, and the others are where they were. -/
theorem Halfway.added (h : s.Halfway r ((name, kind) :: waiting)) (hname : r.isTaken name = false)
    {x : Registered} (hx : r.resolve kind = .ok x) :
    s.Halfway { r with aliases := r.aliases ++ [(name, x.kind)] } waiting := by
  obtain ⟨hfirst, hdistinct⟩ := List.nodup_cons.1 h.distinct
  have haliased (other : String) :
      other ∈ Registry.aliased { r with aliases := r.aliases ++ [(name, x.kind)] } ↔
        other ∈ r.aliased ∨ other = name := by
    simp [Registry.aliased]
  refine ⟨?_, h.handlers, hdistinct, fun p hp => ?_, fun p hp => ?_, fun other after hother => ?_⟩
  · exact h.consistent.addAlias hname (h.consistent.lookup_kind hx).1
  · obtain ⟨htarget, hnew⟩ := h.waits p (List.mem_cons_of_mem _ hp)
    refine ⟨htarget, fun hmem => ?_⟩
    rcases (haliased p.1).1 hmem with hmem | heq
    · exact hnew hmem
    · exact hfirst (List.mem_map.2 ⟨p, hp, heq⟩)
  · rcases List.mem_append.1 hp with hp | hp
    · exact h.follows p hp
    · rw [List.mem_singleton.1 hp]
      exact ⟨kind, (h.waits _ List.mem_cons_self).1, h.leads_kind hx⟩
  · rcases h.all other after hother with hmem | hmem
    · rcases List.mem_cons.1 hmem with heq | hmem
      · exact .inr ((haliased other).2 (.inr (congrArg Prod.fst heq)))
      · exact .inl hmem
    · exact .inr ((haliased other).2 (.inl hmem))

/-- An alias that is ready is added, unless it is named like a built-in kind. -/
theorem Halfway.addAlias (h : s.Halfway r ((name, kind) :: waiting)) (hkind : r.contains kind = true) :
    s.Clashes name ∧ r.addAlias name kind = .error (.duplicateHandler name) ∨
      ∃ r', r.addAlias name kind = .ok r' ∧ s.Halfway r' waiting := by
  obtain ⟨htarget, hnew⟩ := h.waits _ List.mem_cons_self
  obtain ⟨x, hx⟩ := Registry.contains_eq_true.1 hkind
  cases hname : r.isTaken name with
  | true =>
    rcases List.mem_append.1 (Registry.isTaken_iff.1 hname) with hhandled | haliased
    · have hclash : s.Clashes name :=
        ⟨h.handled ▸ hhandled, kind, x.kind, htarget, h.leads_kind hx⟩
      exact .inl ⟨hclash, Registry.addAlias_eq_error.2 (.inl ⟨hname, rfl⟩)⟩
    · exact absurd haliased hnew
  | false =>
    exact .inr ⟨_, Registry.addAlias_eq_ok.2 ⟨hname, x, hx, rfl⟩, h.added hname hx⟩

/-- Aliases that are ready are added, unless one of them is named like a built-in kind. -/
theorem Halfway.addAliases (h : s.Halfway r (ready ++ later))
    (hready : ∀ p ∈ ready, r.contains p.2 = true) :
    (∃ name, s.Clashes name ∧ r.addAliases ready = .error (.duplicateHandler name)) ∨
      ∃ r', r.addAliases ready = .ok r' ∧ s.Halfway r' later := by
  induction ready generalizing r with
  | nil => exact .inr ⟨r, rfl, h⟩
  | cons p ready ih =>
    obtain ⟨name, kind⟩ := p
    rcases h.addAlias (hready _ List.mem_cons_self) with ⟨hclash, herror⟩ | ⟨r', hok, h'⟩
    · refine .inl ⟨name, hclash, ?_⟩
      rw [Registry.addAliases, herror]
      rfl
    · have hready' (p) (hp : p ∈ ready) : r'.contains p.2 = true :=
        h.consistent.contains_of_addAlias hok (hready p (List.mem_cons_of_mem _ hp))
      rw [Registry.addAliases, hok]
      exact ih h' hready'

/-- A round leaves the aliases on their way, unless one is named like a built-in kind. -/
theorem Halfway.round (h : s.Halfway r waiting) :
    (∃ name, s.Clashes name ∧ r.addAliases (r.ready waiting) = .error (.duplicateHandler name)) ∨
      ∃ r', r.addAliases (r.ready waiting) = .ok r' ∧ s.Halfway r' (r.later waiting) :=
  (h.perm (r.perm_ready_append_later waiting)).addAliases fun _ hp => (List.mem_filter.1 hp).2

/-- When nothing is ready everything that leads to a built-in kind is known. -/
theorem Halfway.contains_of_leads (h : s.Halfway r waiting) (hstuck : r.ready waiting = [])
    (hkind : s.Leads kind last) : r.contains kind = true := by
  obtain ⟨hruns, hlast⟩ := hkind
  rw [h.consistent.contains_iff, List.mem_append]
  induction hruns using Relation.ReflTransGen.head_induction_on with
  | refl => exact .inl (h.handled ▸ hlast)
  | @head kind after hnext _ ih =>
    refine .inr ((h.all kind after hnext.2).resolve_left fun hmem => ?_)
    refine Registry.not_contains_of_stuck hstuck hmem ?_
    rw [h.consistent.contains_iff, List.mem_append]
    exact ih

/-- When nothing is ready, no alias is named like a built-in kind although it could be added, and the
alias that waits in front is the first of those that lead nowhere. -/
theorem Halfway.of_stuck {rest : List (String × String)} (h : s.Halfway r ((name, kind) :: rest))
    (horder : InNameOrder ((name, kind) :: rest)) (hstuck : r.ready ((name, kind) :: rest) = []) :
    (∀ other, ¬ s.Clashes other) ∧ s.Strays name kind ∧
      ∀ other after, s.Strays other after → name ≤ other := by
  have hunknown {p : String × String} (hp : p ∈ (name, kind) :: rest) (last : String) :
      ¬ s.Leads p.2 last := fun hleads =>
    Registry.not_contains_of_stuck hstuck hp (h.contains_of_leads hstuck hleads)
  refine ⟨fun other hclash => ?_, ?_, fun other after hstrays => ?_⟩
  · obtain ⟨hbuiltin, after, last, hafter, hleads⟩ := hclash
    rcases h.all other after hafter with hmem | hmem
    · exact hunknown hmem last hleads
    · exact h.not_mem_builtinKinds hmem hbuiltin
  · exact ⟨(h.waits _ List.mem_cons_self).1, hunknown List.mem_cons_self⟩
  · -- What has been added leads somewhere, so that this alias waits.
    have hmem : (other, after) ∈ (name, kind) :: rest := by
      refine (h.all other after hstrays.1).resolve_right fun hmem => ?_
      obtain ⟨after', last, hafter', hleads⟩ := h.exists_leads hmem
      cases hstrays.1.symm.trans hafter'
      exact hstrays.2 last hleads
    rcases List.mem_cons.1 hmem with heq | hmem
    · cases heq
      exact le_rfl
    · exact le_of_lt (List.rel_of_pairwise_cons horder hmem)

/-- What the rounds come to: all aliases have been added; one of them is named like a built-in kind;
or the first of those that lead nowhere is for a kind that is unknown. -/
theorem Halfway.settle (h : s.Halfway r waiting) (horder : InNameOrder waiting)
    {result : Except Failure Registry} (hsettles : r.Settles waiting result) :
    (∃ r', result = .ok r' ∧ s.Halfway r' []) ∨
    (∃ name, s.Clashes name ∧ result = .error (.duplicateHandler name)) ∨
    (∀ name, ¬ s.Clashes name) ∧ ∃ name kind, s.Strays name kind ∧
      (∀ other after, s.Strays other after → name ≤ other) ∧
      result = .error (.unknownHandler kind) := by
  induction hsettles with
  | @done r => exact .inl ⟨r, rfl, h⟩
  | @stuck r name kind rest hstuck =>
    obtain ⟨hclashes, hstrays, hfirst⟩ := h.of_stuck horder hstuck
    exact .inr (.inr ⟨hclashes, name, kind, hstrays, hfirst, rfl⟩)
  | @refused r waiting f hadd =>
    rcases h.round with ⟨name, hclash, herror⟩ | ⟨r', hok, -⟩
    · refine .inr (.inl ⟨name, hclash, ?_⟩)
      rw [← hadd, herror]
    · cases hadd.symm.trans hok
  | @round r r' waiting result _ hadd _ ih =>
    rcases h.round with ⟨name, hclash, herror⟩ | ⟨r'', hok, h'⟩
    · cases hadd.symm.trans herror
    · cases hadd.symm.trans hok
      exact ih h' (horder.filter _)

/-- When nothing waits any more, a kind that leads to a built-in one is resolved to its handler, and so
is that kind itself. -/
theorem Halfway.resolve_of_leads (h : s.Halfway r []) (hkind : s.Leads kind last) :
    ∃ x, (last, x) ∈ Registry.builtins ∧ r.resolve kind = .ok (.of last x) ∧
      r.resolve last = .ok (.of last x) := by
  obtain ⟨y, hy⟩ := Registry.contains_eq_true.1 (h.contains_of_leads rfl hkind)
  have hlast : y.kind = last := (h.leads_kind hy).unique hkind
  have hself : r.resolve y.kind = .ok y := h.consistent.resolve_kind hy
  have hmem := mem_of_lookup_eq_some (h.consistent.lookup_kind hy).2
  rw [h.handlers] at hmem
  obtain ⟨⟨kind', x⟩, hx, heq⟩ := List.mem_map.1 hmem
  obtain ⟨hkind', rfl⟩ := Prod.mk.inj heq
  cases hlast
  exact ⟨x, hx, hy, hself⟩

end Halfway

/-- The kinds of a registry are those that some settings describe. -/
structure FollowedBy (s : Settings) (r : Registry) : Prop where
  /-- The kinds are in strict order. -/
  order : r.kinds.Pairwise (· < ·)
  /-- They are the built-in kinds and the aliases. -/
  kinds : ∀ kind, kind ∈ r.kinds ↔
    kind ∈ Registry.builtinKinds ∨ ∃ after, s.target? kind = some after
  /-- Each is resolved to the handler of the built-in kind to which it leads. -/
  resolves : ∀ kind last, s.Leads kind last →
    ∃ x, (last, x) ∈ Registry.builtins ∧ r.resolve kind = .ok (.of last x)
  /-- A template of a kind is compiled, or not, like the same text of the built-in kind. -/
  compiles : ∀ kind last, s.Leads kind last → ∀ (source : Source) (serial : Nat),
    ({ source with kind } : Source).compile r serial =
      (({ source with kind := last } : Source).compile r serial).map fun c => { c with kind }

/-- A built-in handler does not care about the kind of a template. -/
theorem invoke_of_mem_builtins {kind : String} {x : Handler} (hx : (kind, x) ∈ Registry.builtins)
    (text name other : String) :
    (Registered.of kind x).invoke ⟨text, name⟩ = (Registered.of kind x).invoke ⟨text, other⟩ := by
  simp only [Registry.builtins, List.mem_cons, List.not_mem_nil, or_false] at hx
  rcases hx with heq | heq | heq
  · cases heq
    rfl
  · cases heq
    rfl
  · cases heq
    rfl

/-- When nothing waits any more the kinds are as the settings describe them. -/
theorem Halfway.followedBy {s : Settings} {r : Registry} (h : s.Halfway r []) : s.FollowedBy r := by
  refine ⟨h.consistent.pairwise_kinds, fun kind => ?_, fun kind last hleads => ?_,
    fun kind last hleads source serial => ?_⟩
  · have haliased : kind ∈ r.aliased ↔ ∃ after, s.target? kind = some after := by
      constructor
      · intro hmem
        obtain ⟨after, -, hafter, -⟩ := h.exists_leads hmem
        exact ⟨after, hafter⟩
      · rintro ⟨after, hafter⟩
        exact (h.all kind after hafter).resolve_left List.not_mem_nil
    rw [r.perm_kinds.mem_iff, List.mem_append, h.handled, haliased]
  · obtain ⟨x, hx, hkind, -⟩ := h.resolve_of_leads hleads
    exact ⟨x, hx, hkind⟩
  · obtain ⟨x, hx, hkind, hlast⟩ := h.resolve_of_leads hleads
    have hcompile : r.compile ⟨source.text, kind⟩ = r.compile ⟨source.text, last⟩ := by
      rw [Registry.compile, Registry.compile, hkind, hlast]
      exact invoke_of_mem_builtins hx source.text kind last
    simp only [Source.compile, Source.adapter, hcompile]
    cases r.compile ⟨source.text, last⟩ with
    | error f => rfl
    | ok routine => rfl

/-- A template of a kind is rendered, or not, like the same text of the built-in kind. -/
theorem FollowedBy.renderSource {s : Settings} {r : Renderer} (h : s.FollowedBy r.handlers)
    {kind last : String} (hleads : s.Leads kind last) (source : Source) (attributes : Attributes)
    (content : Option Markup) :
    r.renderSource { source with kind } attributes content =
      r.renderSource { source with kind := last } attributes content := by
  rw [Renderer.renderSource, Renderer.renderSource, h.compiles kind last hleads]
  cases ({ source with kind := last } : Source).compile r.handlers 0 with
  | error f => rfl
  | ok c => rfl

/-- The rounds for the aliases of some settings come to one end, which is their registry. -/
theorem settles_iff_ofSettings (s : Settings) (result : Except Failure Registry) :
    Registry.withDefaults.Settles (sortByName s.aliases) result ↔ Registry.ofSettings s = result :=
  Registry.settles_iff (Nat.lt_succ_of_le (length_sortByName_le s.aliases))

/-- Settings with the same aliases make the same registry. -/
theorem ofSettings_congr {s t : Settings} (h : ∀ name, t.target? name = s.target? name) :
    Registry.ofSettings t = Registry.ofSettings s := by
  rw [← settles_iff_ofSettings, sortByName_congr h, settles_iff_ofSettings]

/-- A renderer has the registry of its settings. -/
theorem renderer_ofSettings (s : Settings) :
    Renderer.ofSettings s =
      (Registry.ofSettings s).map fun handlers => { settings := s, handlers } := by
  rw [Renderer.ofSettings]
  cases Registry.ofSettings s with
  | error f => rfl
  | ok handlers => rfl

/-- When nothing waits any more there is nothing wrong with the aliases. -/
theorem Halfway.sound {s : Settings} {r : Registry} (h : s.Halfway r []) : s.Sound := by
  intro name kind htarget
  have hname : name ∈ r.aliased := (h.all name kind htarget).resolve_left List.not_mem_nil
  obtain ⟨after, last, hafter, hleads⟩ := h.exists_leads hname
  cases htarget.symm.trans hafter
  exact ⟨h.not_mem_builtinKinds hname, last, hleads⟩

/-- With nothing wrong no alias is named like a built-in kind. -/
theorem Sound.not_clashes {s : Settings} (h : s.Sound) (name : String) : ¬ s.Clashes name := by
  rintro ⟨hbuiltin, kind, last, htarget, -⟩
  exact (h name kind htarget).1 hbuiltin

/-- With nothing wrong each alias leads somewhere. -/
theorem Sound.not_strays {s : Settings} (h : s.Sound) (name kind : String) : ¬ s.Strays name kind := by
  rintro ⟨htarget, hstrays⟩
  obtain ⟨last, hleads⟩ := (h name kind htarget).2
  exact hstrays last hleads

/-- What the aliases of any settings come to. -/
theorem ofSettings_cases (s : Settings) :
    (s.Sound ∧ ∃ r : Registry, s.FollowedBy r ∧
      Renderer.ofSettings s = .ok { settings := s, handlers := r }) ∨
    (∃ name, s.Clashes name ∧ Renderer.ofSettings s = .error (.duplicateHandler name)) ∨
    (∀ name, ¬ s.Clashes name) ∧ ∃ name kind, s.Strays name kind ∧
      (∀ other after, s.Strays other after → name ≤ other) ∧
      Renderer.ofSettings s = .error (.unknownHandler kind) := by
  rw [renderer_ofSettings]
  have hsettles := (settles_iff_ofSettings s (Registry.ofSettings s)).2 rfl
  rcases (halfway_start s).settle (inNameOrder_sortByName s.aliases) hsettles with
    ⟨r, hok, h⟩ | ⟨name, hclash, herror⟩ | ⟨hclashes, name, kind, hstrays, hfirst, herror⟩
  · rw [hok]
    exact .inl ⟨h.sound, r, h.followedBy, rfl⟩
  · rw [herror]
    exact .inr (.inl ⟨name, hclash, rfl⟩)
  · rw [herror]
    exact .inr (.inr ⟨hclashes, name, kind, hstrays, hfirst, rfl⟩)

end Settings

/-- The aliases of any settings are added in rounds that come to exactly one end. A renderer is made
if every alias leads to a built-in kind and none is named like one. Its kinds are then the built-in
ones and the aliases, and what is of some kind is compiled and rendered like what is of the built-in
kind to which that leads. Otherwise it fails: for an alias that is named like a built-in kind although
what it stands for leads to one; or else for what the first of those aliases stands for that lead
nowhere, whose chain dangles or runs into a circle. It does not matter in which order the aliases are
listed. -/
theorem configured_aliases_are_chains (s : Settings) :
    (∀ result, Registry.withDefaults.Settles (sortByName s.aliases) result ↔
      Registry.ofSettings s = result) ∧
    ((∃ r, Renderer.ofSettings s = .ok r) ↔ s.Sound) ∧
    (∀ r, Renderer.ofSettings s = .ok r → s.FollowedBy r.handlers ∧
      ∀ kind last, s.Leads kind last → ∀ (routes : Routes) (source : Source) attributes content,
        ({ r with routes } : Renderer).renderSource { source with kind } attributes content =
          ({ r with routes } : Renderer).renderSource { source with kind := last }
            attributes content) ∧
    ((∃ name, s.Clashes name) →
      ∃ name, s.Clashes name ∧ Renderer.ofSettings s = .error (.duplicateHandler name)) ∧
    ((∀ name, ¬ s.Clashes name) → (∃ name kind, s.Strays name kind) →
      ∃ name kind, s.Strays name kind ∧ (∀ other after, s.Strays other after → name ≤ other) ∧
        (∃ other, s.Runs kind other ∧ (s.Dangles other ∨ s.Circles other)) ∧
        Renderer.ofSettings s = .error (.unknownHandler kind)) ∧
    (∀ t : Settings, (∀ name, t.target? name = s.target? name) →
      (Renderer.ofSettings t).map (·.handlers) = (Renderer.ofSettings s).map (·.handlers)) := by
  refine ⟨s.settles_iff_ofSettings, ?_, fun r hr => ?_, fun hclashes => ?_,
    fun hclashes hstrays => ?_, fun t ht => ?_⟩
  · rcases s.ofSettings_cases with ⟨hsound, r, -, hok⟩ | ⟨name, hclash, herror⟩ |
      ⟨-, name, kind, hstrays, -, herror⟩
    · exact iff_of_true ⟨_, hok⟩ hsound
    · rw [herror]
      exact iff_of_false (fun ⟨r, hr⟩ => by cases hr) fun hsound => hsound.not_clashes name hclash
    · rw [herror]
      exact iff_of_false (fun ⟨r, hr⟩ => by cases hr) fun hsound =>
        hsound.not_strays name kind hstrays
  · rcases s.ofSettings_cases with ⟨-, r', hfollowed, hok⟩ | ⟨name, -, herror⟩ |
      ⟨-, name, kind, -, -, herror⟩
    · cases hr.symm.trans hok
      refine ⟨hfollowed, fun kind last hleads routes source attributes content => ?_⟩
      exact hfollowed.renderSource (r := { settings := s, handlers := r', routes }) hleads source
        attributes content
    · cases hr.symm.trans herror
    · cases hr.symm.trans herror
  · rcases s.ofSettings_cases with ⟨hsound, -⟩ | hclash | ⟨hnone, -⟩
    · obtain ⟨name, hclash⟩ := hclashes
      exact absurd hclash (hsound.not_clashes name)
    · exact hclash
    · obtain ⟨name, hclash⟩ := hclashes
      exact absurd hclash (hnone name)
  · rcases s.ofSettings_cases with ⟨hsound, -⟩ | ⟨name, hclash, -⟩ |
      ⟨-, name, kind, hfirst, hleast, herror⟩
    · obtain ⟨name, kind, hstray⟩ := hstrays
      exact absurd hstray (hsound.not_strays name kind)
    · exact absurd hclash (hclashes name)
    · exact ⟨name, kind, hfirst, hleast, Settings.not_leads_iff.1 hfirst.2, herror⟩
  · rw [Settings.renderer_ofSettings, Settings.renderer_ofSettings, Settings.ofSettings_congr ht]
    cases Registry.ofSettings s with
    | error f => rfl
    | ok handlers => rfl

/-- A chain that is listed from its end leads to its end all the same, an alias of a known kind must
not be named like a built-in one, and an alias of itself stands for an unknown kind. -/
theorem configured_aliases_are_chains_three_ways :
    (∃ r, Renderer.ofSettings { aliases := [("b", "html"), ("a", "b")] } = .ok r ∧
      ∃ x, r.handlers.resolve "a" = .ok (.of "html" x)) ∧
    (Renderer.ofSettings { aliases := [("a", "b"), ("b", "html")] }).map (·.handlers) =
      (Renderer.ofSettings { aliases := [("b", "html"), ("a", "b")] }).map (·.handlers) ∧
    Renderer.ofSettings { aliases := [("html", "page"), ("page", "raw")] } =
      .error (.duplicateHandler "html") ∧
    Renderer.ofSettings { aliases := [("page", "page")] } = .error (.unknownHandler "page") := by
  refine ⟨?_, ?_, ?_, ?_⟩
  · obtain ⟨-, hok, hfollowed, -⟩ :=
      configured_aliases_are_chains { aliases := [("b", "html"), ("a", "b")] }
    have hb : Settings.Leads { aliases := [("b", "html"), ("a", "b")] } "b" "html" :=
      Settings.Next.leads ⟨by decide, rfl⟩ (Settings.leads_self (by decide))
    have ha : Settings.Leads { aliases := [("b", "html"), ("a", "b")] } "a" "html" :=
      Settings.Next.leads ⟨by decide, rfl⟩ hb
    obtain ⟨r, hr⟩ := hok.2 fun name kind htarget => by
      have hmem := mem_of_lookup_eq_some htarget
      rcases List.mem_pair.1 hmem with heq | heq
      · cases heq
        exact ⟨by decide, "html", hb⟩
      · cases heq
        exact ⟨by decide, "html", Settings.leads_self (by decide)⟩
    obtain ⟨x, -, hx⟩ := (hfollowed r hr).1.resolves "a" "html" ha
    exact ⟨r, hr, x, hx⟩
  · obtain ⟨-, -, -, -, -, horder⟩ :=
      configured_aliases_are_chains { aliases := [("b", "html"), ("a", "b")] }
    refine horder _ fun name => ?_
    simp only [Settings.target?, List.reverse_cons, List.reverse_nil, List.nil_append,
      List.cons_append, lookup_cons_eq_ite]
    by_cases ha : name = "a"
    · subst ha
      decide
    · rw [if_neg ha, if_neg ha]
  · obtain ⟨-, -, -, hclash, -⟩ :=
      configured_aliases_are_chains { aliases := [("html", "page"), ("page", "raw")] }
    have hpage : Settings.Leads { aliases := [("html", "page"), ("page", "raw")] } "page" "raw" :=
      Settings.Next.leads ⟨by decide, rfl⟩ (Settings.leads_self (by decide))
    obtain ⟨name, ⟨hbuiltin, kind, last, htarget, -⟩, herror⟩ :=
      hclash ⟨"html", by decide, "page", "raw", rfl, hpage⟩
    have hmem := mem_of_lookup_eq_some htarget
    rcases List.mem_pair.1 hmem with heq | heq
    · cases heq
      exact absurd hbuiltin (by decide)
    · cases heq
      exact herror
  · obtain ⟨-, -, -, -, hstrays, -⟩ :=
      configured_aliases_are_chains { aliases := [("page", "page")] }
    have hcircle : Settings.Circles { aliases := [("page", "page")] } "page" :=
      Relation.TransGen.single ⟨by decide, rfl⟩
    obtain ⟨name, kind, ⟨htarget, -⟩, -, -, herror⟩ := hstrays
      (fun name ⟨hbuiltin, kind, last, htarget, _⟩ => by
        cases List.mem_singleton.1 (mem_of_lookup_eq_some htarget)
        exact absurd hbuiltin (by decide))
      ⟨"page", "page", rfl, fun last => hcircle.not_leads⟩
    cases List.mem_singleton.1 (mem_of_lookup_eq_some htarget)
    exact herror

end Stencil
