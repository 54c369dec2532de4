/-
  Templates before or after mounting: the operations are the same.

  Routes belong to one operation if their endpoints have one method and one path template. Only the
  template of a path counts there, so it does not matter whether a path is made a template when it is
  registered or once it is mounted.

  1. **Other paths** — `RouteGraph.withPaths`: a graph with other paths for its endpoints. Nothing else
     changes about the endpoints (`endpoint?_withPaths`).
  2. **Groups** — two graphs with the same keys, and with the same targets at them, have the same groups
     (`groups_congr`).
  3. **The result** — `templates_commute_with_mounting`.
-/
import RouteDoc.Proofs.Document.Assembly
import RouteDoc.Proofs.Route.Interleaving
import RouteDoc.Proofs.Route.Recording
import RouteDoc.Proofs.Router.Templates

namespace RouteDoc

/-! ## Other paths -/

/-- The endpoint with another path. -/
def Endpoint.withPath (path : String) (e : Endpoint) : Endpoint :=
  { e with path := path }

/-- The contribution with another path, if it is an endpoint. -/
def Contribution.withPath (path : String) (c : Contribution) : Contribution :=
  c.endpoint?.elim c fun e => ⟨c.origin, .endpoint (e.withPath path)⟩

theorem Contribution.origin_withPath (path : String) (c : Contribution) :
    (c.withPath path).origin = c.origin := by
  rw [withPath]
  cases c.endpoint? <;> rfl

theorem Contribution.endpoint?_withPath (path : String) (c : Contribution) :
    (c.withPath path).endpoint? = c.endpoint?.map (Endpoint.withPath path) := by
  rw [withPath]
  cases hendpoint : c.endpoint? with
  | none => exact hendpoint
  | some e => rfl

theorem documentedFirst_withPath (path : String) (cs : List Contribution) :
    documentedFirst (cs.map (Contribution.withPath path))
    = (documentedFirst cs).map (Contribution.withPath path) := by
  have hfilter : ∀ origin : Origin, (cs.map (Contribution.withPath path)).filter (·.origin = origin)
      = (cs.filter (·.origin = origin)).map (Contribution.withPath path) := by
    intro origin
    rw [List.filter_map]
    refine congrArg (List.map _) (List.filter_congr fun c _ => ?_)
    rw [Function.comp_apply, Contribution.origin_withPath]
  rw [documentedFirst, documentedFirst, hfilter, hfilter, List.map_append]

namespace RouteGraph

/-- The graph with other paths for its endpoints, route by route. -/
def withPaths (path : RouteKey → String) (g : RouteGraph) : RouteGraph :=
  ⟨g.entries.map fun entry => (entry.1, entry.2.map (Contribution.withPath (path entry.1))),
    SortedMap.ordered_map _ g.ordered⟩

variable (path : RouteKey → String) (g : RouteGraph)

theorem keys_withPaths : (g.withPaths path).keys = g.keys :=
  SortedMap.keys_map _ _

theorem contributions_withPaths (key : RouteKey) :
    (g.withPaths path).contributions key
    = (g.contributions key).map (Contribution.withPath (path key)) := by
  have hget : SortedMap.get? key (g.withPaths path).entries
      = (SortedMap.get? key g.entries).map (List.map (Contribution.withPath (path key))) :=
    SortedMap.get?_map_entries (fun key => List.map (Contribution.withPath (path key))) key g.entries
  rw [contributions, contributions, hget]
  cases SortedMap.get? key g.entries <;> rfl

/-- **The endpoints have the other paths**, and are the same otherwise. -/
theorem endpoint?_withPaths (key : RouteKey) :
    Document.endpoint? (g.withPaths path) key
    = (Document.endpoint? g key).map (Endpoint.withPath (path key)) := by
  -- on both sides it is the first endpoint, documented ones before others
  rw [endpoint?_eq, endpoint?_eq, merge, merge, List.flatMap_singleton, List.flatMap_singleton,
    Route.endpoint_merge, Route.endpoint_merge, contributions_withPaths, documentedFirst_withPath,
    List.findSome?_map, List.map_findSome?]
  exact congrArg (List.findSome? · _) (funext fun c => c.endpoint?_withPath (path key))

end RouteGraph

namespace Document

open Router (Mount MountTable PendingRoute join template fullPath)

/-! ## Groups -/

theorem group_eq (g : RouteGraph) (groups : SortedMap Target (List RouteKey)) (key : RouteKey) :
    group g groups key
      = (target? g key).elim groups fun t =>
        SortedMap.alter t (fun old => old.getD [] ++ [key]) groups := by
  rw [group, target?]
  cases endpoint? g key <;> rfl

/-- Only the keys and their targets count for the groups. -/
theorem groups_congr {g g' : RouteGraph} (hkeys : g.keys = g'.keys)
    (htargets : ∀ key, target? g key = target? g' key) : groups g = groups g' := by
  have hgroup : group g = group g' := by
    funext groups key
    rw [group_eq, group_eq, htargets]
  rw [groups_eq, groups_eq, hkeys, hgroup]

/-- Paths with one template lead to the same groups. -/
theorem groups_withPaths_congr (g : RouteGraph) {path path' : RouteKey → String}
    (h : ∀ key, template (path key) = template (path' key)) :
    groups (g.withPaths path) = groups (g.withPaths path') := by
  refine groups_congr ?_ fun key => ?_
  · rw [RouteGraph.keys_withPaths, RouteGraph.keys_withPaths]
  · rw [target?, target?, RouteGraph.endpoint?_withPaths, RouteGraph.endpoint?_withPaths, Option.map_map,
      Option.map_map]
    refine congrArg (Option.map · _) (funext fun e => ?_)
    show (⟨template (path key), e.method⟩ : Target) = ⟨template (path' key), e.method⟩
    rw [h key]

/-! ## The result -/

/-- **Templates commute with mounting.** The template of a path that is mounted under another is the joint
    of their templates, and a template is its own template. So take any graph, any mounts, and for every
    key a registered route whose full path the endpoints there have: the groups of routes that belong to
    one operation are the same if every mount and every route was registered with a template. -/
theorem templates_commute_with_mounting :
    (∀ p q : String, template (join p q) = join (template p) (template q))
      ∧ (∀ p : String, template (template p) = template p)
      ∧ ∀ (g : RouteGraph) (mounts : List Mount) (registered : RouteKey → PendingRoute),
          groups (g.withPaths fun key => fullPath (.ofMounts mounts) (registered key))
            = groups (g.withPaths fun key =>
                fullPath (.ofMounts (mounts.map Mount.templated)) (registered key).templated) := by
  refine ⟨Router.template_join, Router.template_template, fun g mounts registered => ?_⟩
  refine groups_withPaths_congr g fun key => ?_
  rw [Router.fullPath_templated, Router.template_template]

end Document

end RouteDoc
