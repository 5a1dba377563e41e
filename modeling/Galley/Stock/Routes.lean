import Galley.Route

/-!
# Stock routes

The routes of a small site: a front page, a page for each person, and two groups of the same
application.
-/

namespace Galley.Stock

/-- The routes of both groups. -/
def userRoutes : List Route := [⟨"user", [.parameter "username", .text "/"]⟩]

/-- The routes of the site. -/
def routes : RouteTable := {
  routes := [
    ⟨"home", []⟩,
    ⟨"bio", [.text "bio/", .parameter "username", .text "/"]⟩]
  groups := [
    ⟨"users/", "users", "users", userRoutes⟩,
    ⟨"members/", "users", "members", userRoutes⟩] }

end Galley.Stock
