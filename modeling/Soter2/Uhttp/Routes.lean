import Mathlib.Data.List.Basic
import Mathlib.Tactic.Common
import Soter2.Uhttp.Parser
import Soter2.Uhttp.Server

/-! # Routes (`uhttp/src/server.c`)

A route is a path with a handler.  The poller cuts the query off the path of a request, and asks
the handler of the first route with that path.

* `respond_append` — of several routes with one path the one that was set first answers.
-/

namespace Soter2.Uhttp

open Text
open Lownet (NnetFd cString)

variable {σ : Type*}

/-- A handler reads and writes the context of the server. -/
structure UhttpRoute (σ : Type*) where
  path : List UInt8
  handler : UhttpHighRequest → σ → UhttpResponse × σ

/-- `uhttp_set_route`; a path of 512 bytes or more leaves the field that it is copied to. -/
def uhttpSetRoute (routes : List (UhttpRoute σ)) (path : List UInt8)
    (handler : Option (UhttpHighRequest → σ → UhttpResponse × σ)) :
    Option (Int × List (UhttpRoute σ)) :=
  match handler with
  | none => some (-1, routes)
  | some handler =>
    if cString path = [] then some (-1, routes)
    else if 512 ≤ (cString path).length then none
    else some (0, routes ++ [⟨cString path, handler⟩])

def uhttpGetClearRoute (req : UhttpRequest) : List UInt8 :=
  let path := cString req.path
  match findByte 63 path with
  | none => path
  | some q => path.take q

/-- `SIZE_MAX`. -/
abbrev sizeMax : Nat := 2 ^ 64 - 1

/-- `uhttp_create_response`; `body` is what can be read behind the pointer. -/
def uhttpCreateResponse (statusCode : Int) (statusText body : Option (List UInt8)) (bodyLen : Nat)
    (contentType : UhttpContentType) : UhttpResponse :=
  let fresh : UhttpResponse := ⟨statusCode, statusText.map cString, [], none, bodyLen, contentType⟩
  match body with
  | none => fresh
  | some body =>
    if bodyLen = 0 then fresh
    else
      let bodyLen := if bodyLen = sizeMax then (cString body).length else bodyLen
      { fresh with bodyLen := bodyLen, body := some (body.take bodyLen) }

def pathNotFound : UhttpResponse :=
  uhttpCreateResponse 404 (some (ascii "Path is not found")) none 0 .textPlain

def UhttpRoute.Matches (req : UhttpHighRequest) (route : UhttpRoute σ) : Prop :=
  uhttpGetClearRoute req.req = route.path

instance (req : UhttpHighRequest) : DecidablePred (UhttpRoute.Matches (σ := σ) req) := fun _ =>
  inferInstanceAs (Decidable (_ = _))

/-- The loop over the routes in `uhttp_server_poll_routes`: the response, and what the handler
    makes of the context. -/
def respond (routes : List (UhttpRoute σ)) (ctx : σ) (req : UhttpHighRequest) : UhttpResponse × σ :=
  match routes.find? fun route => route.Matches req with
  | some route => route.handler req ctx
  | none => (pathNotFound, ctx)

variable {routes : List (UhttpRoute σ)} {req : UhttpHighRequest} {ctx : σ}

theorem respond_of_unmatched (unmatched : ∀ route ∈ routes, ¬ route.Matches req) :
    respond routes ctx req = (pathNotFound, ctx) := by
  have none_ : routes.find? (fun route => route.Matches req) = none :=
    List.find?_eq_none.mpr fun route member => by simpa using unmatched route member
  rw [respond, none_]

/-- Of several routes with one path the one that was set first answers. -/
theorem respond_append (routes : List (UhttpRoute σ)) (route : UhttpRoute σ) :
    respond (routes ++ [route]) ctx req =
      if ∃ r ∈ routes, r.Matches req then respond routes ctx req
      else if route.Matches req then route.handler req ctx
      else (pathNotFound, ctx) := by
  rw [respond, List.find?_append]
  split_ifs with earlier here
  · obtain ⟨r, member, matched⟩ := earlier
    have found : (routes.find? fun r => r.Matches req).isSome :=
      List.find?_isSome.mpr ⟨r, member, by simpa using matched⟩
    obtain ⟨first, found⟩ := Option.isSome_iff_exists.mp found
    rw [respond, found]
    rfl
  · have none_ : routes.find? (fun r => r.Matches req) = none :=
      List.find?_eq_none.mpr fun r member matched => earlier ⟨r, member, of_decide_eq_true matched⟩
    rw [none_, List.find?_singleton, if_pos (decide_eq_true here)]
    rfl
  · have none_ : routes.find? (fun r => r.Matches req) = none :=
      List.find?_eq_none.mpr fun r member matched => earlier ⟨r, member, of_decide_eq_true matched⟩
    rw [none_, List.find?_singleton, if_neg (by simpa using here)]
    rfl

/-- What stands behind the question mark does not matter to the choice of the route. -/
theorem uhttpGetClearRoute_query {req : UhttpRequest} {path query : List UInt8}
    (split : cString req.path = path ++ 63 :: query) (plain : 63 ∉ path) :
    uhttpGetClearRoute req = path := by
  have at_ : findByte 63 (path ++ 63 :: query) = some path.length := by
    rw [findByte, List.findIdx?_append]
    have before : path.findIdx? (fun c => decide (c = 63)) = none := by
      rw [List.findIdx?_eq_none_iff]
      intro c member
      exact decide_eq_false fun same => plain (same ▸ member)
    simp [before, List.findIdx?_cons]
  rw [uhttpGetClearRoute, split]
  simp only [at_, List.take_left']

end Soter2.Uhttp
