import Gatehouse.Gateway.Inbound
import Mathlib.Tactic.SplitIfs

/-!
# The ways of a request

A request that is not for the admin interface is answered by the gateway itself, or it looks for a
route; on the route its call ends as soon as it has begun, or goes out. What is shown of requests is
shown for each of these ways.

* `Gateway.Routed`, `routed` : what comes of looking for a route;
* `Gateway.Entered`, `entered` : what comes of a request that passes the limiter, or does not.
-/

namespace Gatehouse

open Gatehouse.Http Gatehouse.Routing

namespace Gateway

variable {α : Type}

/-- What may come of a request that looks for a route. -/
inductive Routed (g : Gateway α) (now : Moment) (id : String) (timeout : Moment) (r : Request) :
    Arrival × Gateway α × List Event → Prop
  | unrouted (hroute : g.table.find? r.method r.uri.path = none) :
    Routed g now id timeout r (.answered ⟨Reply.routeNotFound, some .routeNotFound⟩, g,
      [.notice .requestReceived, .notice .requestUnrouted,
        measured r.method .notFound "none" .routeNotFound 0])
  | answered {route : Route} {v : Verdict} {d : Dispatcher} {events : List Event}
    (hroute : g.table.find? r.method r.uri.path = some route)
    (hstart : g.dispatcher.start now route.target r = (.answered v, d, events)) :
    Routed g now id timeout r (.answered v.answer, { g with dispatcher := d },
      .notice .requestReceived ::
        events ++ completed ⟨r.method, r.name, route.service, now, timeout⟩ now v)
  | sent {route : Route} {forward : Forward} {request : Outbound} {d : Dispatcher}
    {events : List Event} (hroute : g.table.find? r.method r.uri.path = some route)
    (hstart : g.dispatcher.start now route.target r = (.sent forward request, d, events)) :
    Routed g now id timeout r (.sent request,
      { g with
        dispatcher := d
        calls := g.calls ++
          [⟨id, forward, some ⟨r.method, r.name, route.service, now, timeout⟩⟩] },
      .notice .requestReceived :: events)

/-- What may come of a request that is not for the admin interface. Only a request to a backend looks
for a route. -/
inductive Entered (g : Gateway α) (now : Moment) (id : String) (timeout : Moment)
    (resource : Resource) (r : Request) : Arrival × Gateway α × List Event → Prop
  | limited (l : Limiter α) (outcome : Outcome) :
    Entered g now id timeout resource r (.answered ⟨Reply.rateLimited, some outcome⟩,
      { g with limiter := l }, [.notice .limitExceeded, .measurement .rateLimited])
  | healthy (l : Limiter α) :
    Entered g now id timeout resource r
      (.answered ⟨Reply.healthy, none⟩, { g with limiter := l }, [])
  | notAllowed (l : Limiter α) :
    Entered g now id timeout resource r
      (.answered ⟨Reply.bare .methodNotAllowed, none⟩, { g with limiter := l }, [])
  | routed (l : Limiter α) (hbackend : resource = .backend) :
    Entered g now id timeout resource r ({ g with limiter := l }.route now id timeout r)

variable (g : Gateway α) (now : Moment) (id : String) (timeout : Moment) (r : Request)

theorem routed : Routed g now id timeout r (g.route now id timeout r) := by
  unfold route
  cases hroute : g.table.find? r.method r.uri.path with
  | none => exact .unrouted hroute
  | some route =>
    dsimp only
    generalize hstart : g.dispatcher.start now route.target r = x
    obtain ⟨start, d, events⟩ := x
    cases start with
    | answered v => exact .answered hroute hstart
    | sent forward request => exact .sent hroute hstart

theorem entered [TokenArithmetic α] (resource : Resource) :
    Entered g now id timeout resource r (g.enter now id timeout resource r) := by
  have hserve (l : Limiter α) : Entered g now id timeout resource r
      ({ g with limiter := l }.serve now id timeout resource r) := by
    unfold serve
    split
    · exact .routed l rfl
    · split_ifs
      · exact .healthy l
      · exact .notAllowed l
  unfold enter
  split_ifs
  · dsimp only
    split
    · exact hserve _
    · exact .limited ..
  · exact hserve g.limiter

end Gateway

end Gatehouse
