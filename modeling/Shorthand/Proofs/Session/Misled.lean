import Shorthand.Proofs.Session.Typed
/-!
# Patches of other texts

The service takes a patch for the one that led to the text at hand if the text has the length that the patch leads to.
A patch of another text may do so by chance.  It does no harm as long as the region ends within the text that it is for,
since its end is one of the text at hand then (`Patch.mapSpan_within_iff`); a region that ends behind that is taken
behind the end of the text, where it stays unless the tracker ends by what it reads there (`Session.misled`).
-/
namespace Shorthand

namespace Session

variable {s : Session} {p : Patch} {t : Tracker}

end Session

namespace Opening

end Opening
end Shorthand
