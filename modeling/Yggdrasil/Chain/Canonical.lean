import Yggdrasil.Chain.Extractor
import Yggdrasil.Chain.Publisher
import Yggdrasil.Foundation.StableSort

/-!
# The wire body of a rule set

What a terminal publishes depends on the rules it has and not on the files they
are in or on their order.  Predicates are sorted by name with a stable sort; a
rule may bear the name of the HTTPS predicate, which then comes behind it.
-/

namespace Yggdrasil.Chain

open Foundation Foundation.Postcard Ratatoskr

def wireProjection {D : Type} (https : HttpsPredicateMeta) (origin : PubKey) (hash : Bytes → D) :
    Projection RuleSet D where
  encode ruleset := some (extract ruleset https origin).encode
  hash := hash

def NameLe (a b : Predicate) : Prop := strBytes a.name ≤ strBytes b.name

instance : DecidableRel NameLe := fun a b =>
  inferInstanceAs (Decidable (strBytes a.name ≤ strBytes b.name))

instance : Std.Total NameLe where
  total a b := List.le_total (strBytes a.name) (strBytes b.name)

instance : IsTrans Predicate NameLe where
  trans _ _ _ hab hbc := List.le_trans hab hbc

theorem extract_predicates (ruleset : RuleSet) (https : HttpsPredicateMeta) (origin : PubKey) :
    (extract ruleset https origin).predicates =
      (projections ruleset https).insertionSort NameLe := rfl

def httpsRank (p : Predicate) : Nat := if p.protocol = .https then 1 else 0

theorem httpsRank_projectRule {ruleset : RuleSet} {rule : Rule} (h : rule ∈ ruleset.rules) :
    httpsRank (projectRule rule) = 0 :=
  if_neg (ruleset.bindable rule h).1

section

variable {ruleset first second : RuleSet} {https : HttpsPredicateMeta}

theorem mem_projections_iff {p : Predicate} :
    p ∈ projections ruleset https ↔
      (∃ rule ∈ ruleset.rules, projectRule rule = p) ∨
        ruleset.routes ≠ [] ∧ p = projectRoutes https := by
  rw [projections, List.mem_append, List.mem_map]
  by_cases hroutes : ruleset.routes = []
  · simp [hroutes]
  · simp [hroutes]

theorem pairwise_httpsRank_projections :
    (projections ruleset https).Pairwise (fun a b => httpsRank a ≤ httpsRank b) := by
  have hzero : ∀ p ∈ ruleset.rules.map projectRule, httpsRank p = 0 := by
    intro p hp
    obtain ⟨rule, hrule, rfl⟩ := List.mem_map.1 hp
    exact httpsRank_projectRule hrule
  refine List.pairwise_append.2 ⟨?_, ?_, fun p hp q _ => (hzero p hp).trans_le (Nat.zero_le _)⟩
  · exact List.pairwise_of_forall_mem_list fun p hp q _ => (hzero p hp).trans_le (Nat.zero_le _)
  · split
    · exact List.Pairwise.nil
    · exact List.pairwise_singleton _ _

theorem eq_of_name_of_rank {a b : Predicate} (ha : a ∈ projections ruleset https)
    (hb : b ∈ projections ruleset https) (hname : a.name = b.name)
    (hrank : httpsRank a = httpsRank b) : a = b := by
  have hone : httpsRank (projectRoutes https) = 1 := rfl
  rcases mem_projections_iff.1 ha with ⟨rule, hrule, rfl⟩ | ⟨-, rfl⟩
  · rcases mem_projections_iff.1 hb with ⟨other, hother, rfl⟩ | ⟨-, rfl⟩
    · have hfound := ruleset.find_of_mem hother
      rw [show other.name = rule.name from hname.symm, ruleset.find_of_mem hrule] at hfound
      rw [Option.some.inj hfound]
    · rw [httpsRank_projectRule hrule, hone] at hrank
      cases hrank
  · rcases mem_projections_iff.1 hb with ⟨other, hother, rfl⟩ | ⟨-, rfl⟩
    · rw [httpsRank_projectRule hother, hone] at hrank
      cases hrank
    · rfl

theorem perm_projections (hrules : first.rules.Perm second.rules)
    (hroutes : first.routes.Perm second.routes) :
    (projections first https).Perm (projections second https) := by
  have hnil : first.routes = [] ↔ second.routes = [] := by
    rw [← List.length_eq_zero_iff, hroutes.length_eq, List.length_eq_zero_iff]
  rw [projections, projections, if_congr hnil rfl rfl]
  exact (hrules.map projectRule).append_right _

theorem extract_eq_of_perm (hrules : first.rules.Perm second.rules)
    (hroutes : first.routes.Perm second.routes) (https : HttpsPredicateMeta) (origin : PubKey) :
    extract first https origin = extract second https origin := by
  have hsorted : (projections first https).insertionSort NameLe =
      (projections second https).insertionSort NameLe := by
    refine insertionSort_eq_of_perm httpsRank (perm_projections hrules hroutes)
      pairwise_httpsRank_projections pairwise_httpsRank_projections ?_
    intro a ha b hb hab hba hrank
    exact eq_of_name_of_rank ha hb (strBytes_injective (List.le_antisymm hab hba)) hrank
  exact congrArg (fun predicates => PredicateSet.mk predicates origin) hsorted

end

theorem validateEach_ok_iff {lib : Library} {file : RuleFile} :
    file.validateEach lib = .ok () ↔
      (∀ rule ∈ file.rule, rule.validate lib = .ok ()) ∧
        ∀ route ∈ file.route, validateHttpRoute lib "<route>" route = .ok () := by
  rw [RuleFile.validateEach, bind_ok_iff, ← forEach_ok_iff, ← forEach_ok_iff]
  constructor
  · rintro ⟨⟨⟩, hrules, hroutes⟩
    exact ⟨hrules, hroutes⟩
  · rintro ⟨hrules, hroutes⟩
    exact ⟨(), hrules, hroutes⟩

theorem exists_fromFiles_of_perm {lib : Library} {files files' : List RuleFile} {first : RuleSet}
    (haccepted : RuleSet.fromFiles lib files = .ok first)
    (hrules : (files.flatMap RuleFile.rule).Perm (files'.flatMap RuleFile.rule))
    (hroutes : (files.flatMap RuleFile.route).Perm (files'.flatMap RuleFile.route)) :
    ∃ second, RuleSet.fromFiles lib files' = .ok second ∧
      first.rules.Perm second.rules ∧ first.routes.Perm second.routes := by
  obtain ⟨hvalid, hfirst, hfirst', hhosts⟩ := RuleSet.fromFiles_ok_iff.1 haccepted
  rw [← hfirst] at hrules
  rw [← hfirst'] at hroutes hhosts
  refine ⟨⟨files'.flatMap RuleFile.rule, files'.flatMap RuleFile.route, ?_, ?_, ?_⟩,
    RuleSet.fromFiles_ok_iff.2 ⟨?_, rfl, rfl, ?_⟩, hrules, hroutes⟩
  · exact fun rule hrule => first.bindable rule (hrules.mem_iff.2 hrule)
  · exact (hrules.map Rule.name).nodup_iff.1 first.names_nodup
  · exact (hrules.map Rule.claim).nodup_iff.1 first.claims_nodup
  · intro file hfile
    refine validateEach_ok_iff.2 ⟨fun rule hrule => ?_, fun route hroute => ?_⟩
    · have hmem := hrules.mem_iff.2 (List.mem_flatMap.2 ⟨file, hfile, hrule⟩)
      rw [hfirst] at hmem
      obtain ⟨source, hsource, hrule'⟩ := List.mem_flatMap.1 hmem
      exact (validateEach_ok_iff.1 (hvalid source hsource)).1 rule hrule'
    · have hmem := hroutes.mem_iff.2 (List.mem_flatMap.2 ⟨file, hfile, hroute⟩)
      rw [hfirst'] at hmem
      obtain ⟨source, hsource, hroute'⟩ := List.mem_flatMap.1 hmem
      exact (validateEach_ok_iff.1 (hvalid source hsource)).2 route hroute'
  · exact (hroutes.map HttpRoute.key).nodup_iff.1 hhosts

theorem publishOne_dedup {ρ D : Type} [DecidableEq D] (P : Projection ρ D) {set : ρ} {body : Bytes}
    (h : P.encode set = some body) (next : Bytes) :
    Publisher.publishOne P set (some (P.hash body)) ≠ .handed next := by
  unfold Publisher.publishOne
  simp only [h]
  split
  · simp
  · simp

/--
Rule sets of the same rules and routes are published as the same bytes, sorted
by name, and the second is not sent after the first; the same rules in other
files are such a set.
-/
theorem extract_canonical (https : HttpsPredicateMeta) (origin : PubKey) {first second : RuleSet}
    (hrules : first.rules.Perm second.rules) (hroutes : first.routes.Perm second.routes) :
    extract first https origin = extract second https origin ∧
    (extract first https origin).predicates.Pairwise NameLe ∧
    (∀ (D : Type) [DecidableEq D] (hash : Bytes → D),
      (wireProjection https origin hash).encode first =
        (wireProjection https origin hash).encode second ∧
      ∀ body, (wireProjection https origin hash).encode first = some body →
        ∀ next, Publisher.publishOne (wireProjection https origin hash) second
          (some (hash body)) ≠ .handed next) ∧
    (∀ lib files files', RuleSet.fromFiles lib files = .ok first →
      (files.flatMap RuleFile.rule).Perm (files'.flatMap RuleFile.rule) →
      (files.flatMap RuleFile.route).Perm (files'.flatMap RuleFile.route) →
      ∃ regrouped, RuleSet.fromFiles lib files' = .ok regrouped ∧
        extract regrouped https origin = extract first https origin) := by
  have hsame := extract_eq_of_perm hrules hroutes https origin
  refine ⟨hsame, ?_, ?_, ?_⟩
  · rw [extract_predicates]
    exact List.pairwise_insertionSort NameLe _
  · intro D _ hash
    have hencode : (wireProjection https origin hash).encode first =
        (wireProjection https origin hash).encode second :=
      congrArg (fun set => some (PredicateSet.encode set)) hsame
    refine ⟨hencode, fun body hbody => ?_⟩
    exact publishOne_dedup (wireProjection https origin hash) (hencode ▸ hbody)
  · intro lib files files' haccepted hfiles hfiles'
    obtain ⟨regrouped, hregrouped, hperm, hperm'⟩ :=
      exists_fromFiles_of_perm haccepted hfiles hfiles'
    exact ⟨regrouped, hregrouped, (extract_eq_of_perm hperm hperm' https origin).symm⟩

def namesakeFirst : RuleSet where
  rules := [sshRule "public-https" (.v4 0x7f000001), sshRule "ssh" (.v4 0x7f000002)]
  routes := [webRoute "www.example"]
  bindable := by decide
  names_nodup := by decide
  claims_nodup := by decide

def namesakeLast : RuleSet where
  rules := [sshRule "ssh" (.v4 0x7f000002), sshRule "public-https" (.v4 0x7f000001)]
  routes := [webRoute "www.example"]
  bindable := by decide
  names_nodup := by decide
  claims_nodup := by decide

theorem extract_canonical_namesake :
    extract namesakeFirst .default (.x25519 .zero) = extract namesakeLast .default (.x25519 .zero) ∧
      (extract namesakeFirst .default (.x25519 .zero)).predicates =
        [projectRule (sshRule "public-https" (.v4 0x7f000001)), projectRoutes .default,
          projectRule (sshRule "ssh" (.v4 0x7f000002))] := by
  have hrules : namesakeFirst.rules.Perm namesakeLast.rules := List.Perm.swap _ _ []
  exact ⟨(extract_canonical .default _ hrules (List.Perm.refl _)).1, by decide⟩

end Yggdrasil.Chain
